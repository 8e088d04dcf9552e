import FileSweep.Json.Value
import FileSweep.Log

/-! The settings of a sweep and their form as a JSON object. -/
namespace FileSweep

structure Settings where
  rootPath : String
  filePattern : String := "*.*"
  recurse : Bool := true
  workingDirectory : String := ""
  passCode : Int := 0
  collectStdout : Bool := false
  collectStderr : Bool := false
  reportFileName : Bool := false
  verbose : Bool := false
  logLevel : Level := .warning
  deriving DecidableEq, Repr

namespace Settings

/-- What holds where nothing else is said; the root is the current directory. -/
def default (cwd : String) : Settings := { rootPath := cwd }

def members (s : Settings) : List (String × Json.Value) :=
  [("root_path", .str s.rootPath), ("file_pattern", .str s.filePattern),
    ("recurse", .bool s.recurse), ("working_directory", .str s.workingDirectory),
    ("pass_code", .int s.passCode), ("collect_stdout", .bool s.collectStdout),
    ("collect_stderr", .bool s.collectStderr), ("report_file_name", .bool s.reportFileName),
    ("verbose", .bool s.verbose), ("log_level", .str s.logLevel.name)]

def toJson (s : Settings) : Json.Value := .obj s.members

def names : List String :=
  ["root_path", "file_pattern", "recurse", "working_directory", "pass_code",
    "collect_stdout", "collect_stderr", "report_file_name", "verbose", "log_level"]

@[simp] theorem members_names (s : Settings) : s.members.map Prod.fst = names := rfl

end Settings
end FileSweep
