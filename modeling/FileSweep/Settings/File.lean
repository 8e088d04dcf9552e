import FileSweep.Host.Files
import FileSweep.Json.Parser
import FileSweep.Settings.Basic

/-! Loading settings from a file and laying them over the defaults. A file that is
missing or cannot be used leaves the defaults. -/
namespace FileSweep
namespace Settings

def readJson (h : Host) (path : String) : Except String Json.Value :=
  match h.readText path with
  | .error e => .error e.message
  | .ok text =>
    match Json.parse text with
    | .error e => .error e.message
    | .ok value => .ok value

/-- The members of the settings in a file over the defaults, and what is logged. Unknown
members are kept. -/
def load (h : Host) (path : String) : List (String × Json.Value) × List Record :=
  let base := (Settings.default h.cwd).members
  if h.pathExists path then
    match readJson h path with
    | .error message =>
      (base, [⟨.warning,
        "Failed to load config " ++ path ++ ": " ++ message ++ ". Using defaults."⟩])
    | .ok (.obj members) =>
      (Json.insertAll base members, [⟨.debug, "Configuration loaded from " ++ path⟩])
    | .ok _ =>
      (base, [⟨.warning, "Corrupted config file " ++ path ++ ". Using defaults."⟩])
  else
    (base, [⟨.debug, "Config file not found: " ++ path ++ ". Returning defaults."⟩])

/-- Lays the overrides that have a value over a configuration. -/
def merge (base overrides : List (String × Json.Value)) : List (String × Json.Value) :=
  Json.insertAll base (overrides.filter fun m => !(m.2 matches .null))

end Settings
end FileSweep
