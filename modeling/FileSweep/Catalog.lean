import FileSweep.Message
import FileSweep.Settings.File

/-! The catalog of messages for the user. A message has a key of names joined by dots; a
key that leads to no text stands for itself, so that a damaged catalog still says
something readable. -/
namespace FileSweep

structure Catalog where
  locale : String
  messages : Json.Value := .obj []
  loaded : Bool := false
  deriving Repr

namespace Catalog

def keyNames (key : String) : List String :=
  (go [] key.toList).map String.ofList
where
  go : List Char → List Char → List (List Char)
    | name, [] => [name]
    | name, c :: cs => if c = '.' then name :: go [] cs else go (name ++ [c]) cs

/-- What the names lead to: nothing if something other than an object is on the way. -/
def follow : Json.Value → List String → Option Json.Value
  | v, [] => some v
  | .obj members, name :: names => follow ((members.lookup name).getD .null) names
  | _, _ :: _ => none

def template? (c : Catalog) (key : String) : Option String :=
  (follow c.messages (keyNames key)).bind Json.Value.string?

/-- The message of a key, filled in with named values. A template that cannot be filled
in is given as it is, and so is every template when there are no values. -/
def message (c : Catalog) (key : String) (args : List (String × Json.Value)) :
    Except FillError String :=
  match c.template? key with
  | none => .ok key
  | some template =>
    if args.isEmpty then .ok template
    else
      match Message.fill template args with
      | .ok text => .ok text
      | .error e => if e.leavesTemplate then .ok template else .error e

/-- Loads the messages of a locale from a directory. A file that is missing or damaged
leaves an empty catalog under the old name. -/
def load (c : Catalog) (h : Host) (dir locale : String) : Catalog :=
  let path := Path.join dir (locale ++ ".json")
  if h.pathExists path then
    match Settings.readJson h path with
    | .ok messages => { locale, messages, loaded := true }
    | .error _ => { c with messages := .obj [], loaded := false }
  else { c with messages := .obj [], loaded := false }

def builtIn : Json.Value :=
  .obj
    [("app", .obj
      [("description", .str "Run a command against every file of a directory tree."),
        ("epilog", .str ("Everything after '--' is the command. It may contain " ++
          "%DIRUN_FNAME%, %DIRUN_FEXT%, %DIRUN_FPATH%, %DIRUN_DPATH%, %DIRUN_FPATH_REL% " ++
          "and %DIRUN_DPATH_REL%, which are replaced for each file. Without a command " ++
          "the matched files are listed."))]),
      ("cli", .obj
        [("args", .obj
          [("dir", .str "The directory to search for files in (default=.)"),
            ("files", .str "Which files to select as targets (default=*.*)"),
            ("working", .str "The directory to run the command from (default=.)"),
            ("pass", .str ("The exit code that command returns when it completes " ++
              "successfully (default=0)")),
            ("norecurse", .str "Don't recurse into subdirectories"),
            ("repfile", .str
              "Report status using the target file name, rather than the command"),
            ("verbose", .str "Print extra information during execution"),
            ("config", .str "Load settings from a JSON file"),
            ("dump", .str "Print the effective configuration as JSON and exit"),
            ("log_file", .str "Also write diagnostics to a rotating log file"),
            ("debug", .str "Elevate logging verbosity to DEBUG")]),
        ("errors", .obj
          [("invalid_argument", .str "error: invalid argument: \x7barg\x7d"),
            ("not_a_directory", .str
              "error: invalid argument: \x7barg\x7d (or, \x7bfiles\x7d is not a valid directory)"),
            ("invalid_working", .str "error: invalid working value: \x7bpath\x7d"),
            ("run_failed", .str "error: \x7berror\x7d")]),
        ("warnings", .obj
          [("no_files", .str "warning: no files found."),
            ("listing", .str "warning: no executable provided, listing target files."),
            ("working_unused", .str
              "warning: working directory not used without a command.")]),
        ("settings", .obj [("no_command", .str "<none specified>")]),
        ("report", .obj
          [("pass", .str "PASS"), ("fail", .str "FAIL"),
            ("exit_code", .str "exit code = \x7bcode\x7d")]),
        ("summary", .obj
          [("duration", .str "duration  = \x7bms\x7d ms"),
            ("num_files", .str "num files = \x7bcount\x7d"),
            ("passed", .str "passed    = \x7bcount\x7d"),
            ("failed", .str "failed    = \x7bcount\x7d")]),
        ("status", .obj [("interrupted", .str "Operation interrupted by user.")])])]

def english : Catalog := { locale := "en", messages := builtIn, loaded := true }

def say (key : String) (args : List (String × Json.Value) := []) : String :=
  match english.message key args with
  | .ok text => text
  | .error _ => key

end Catalog
end FileSweep
