import FileSweep.Host.Basic
import FileSweep.Marker
import FileSweep.Settings.Basic
import FileSweep.Text.Digits

/-! Checking untrusted settings. Under the lenient policy every complaint becomes a
warning and a usable value is put in its place; under the strict one the first complaint
ends the check, and a value of another type is never converted. -/
namespace FileSweep

inductive Policy where
  | strict
  | lenient
  deriving DecidableEq, Repr

inductive Complaint where
  | notAnObject (received : String)
  | wrongType (field expected received : String)
  | badLevel (name : String)
  | badWorkingDirectory (path : String)
  deriving DecidableEq, Repr

namespace Complaint

def message : Complaint → String
  | notAnObject received =>
    "Invalid config type: expected dict, received " ++ received ++ "."
  | wrongType field expected received =>
    "Invalid field '" ++ field ++ "': expected " ++ expected ++ ", received " ++ received ++ "."
  | badLevel name => "Invalid log level '" ++ name ++ "'."
  | badWorkingDirectory path => "invalid --working argument: " ++ path

def warning (c : Complaint) : String :=
  c.message ++ match c with
    | notAnObject _ => " Using defaults."
    | wrongType _ _ _ => " Using fallback."
    | badLevel _ => " Using '" ++ Level.warning.name ++ "'."
    | badWorkingDirectory _ => ". Working directory ignored."

end Complaint

/-- A checked value and the warnings on the way to it, unless the check was ended. -/
abbrev Checked (α : Type) := Except Complaint (α × List String)

namespace Settings

def complain {α : Type} (policy : Policy) (c : Complaint) (fallback : α) : Checked α :=
  match policy with
  | .strict => .error c
  | .lenient => .ok (fallback, [c.warning])

/-- A text without the blanks around it; a missing or blank one is the fallback. -/
def checkText (policy : Policy) (field fallback : String) (v : Json.Value) :
    Checked String :=
  match v with
  | .null => .ok (fallback, [])
  | .str s => .ok (if (Text.trim s).isEmpty then fallback else Text.trim s, [])
  | v => complain policy (.wrongType field "str" v.typeName) fallback

def trueWords : List String := ["true", "1", "yes", "y", "on"]

def falseWords : List String := ["false", "0", "no", "n", "off"]

def flagOfWord? (s : String) : Option Bool :=
  let word := Text.lowerWord (Text.trim s)
  if trueWords.contains word then some true
  else if falseWords.contains word then some false
  else none

def realUnitText (r : Json.Real) : String :=
  if r.isOne then "1.0" else if r.isNegative then "-0.0" else "0.0"

def flagOfNumber? : Json.Value → Option (Bool × String)
  | .int n => if n = 0 ∨ n = 1 then some (n == 1, toString n) else none
  | .real r =>
    if r.isOne || r.isZero then some (r.isOne, realUnitText r) else none
  | _ => none

/-- The lenient reading of a value that is no truth value: the flag and a warning. -/
def convertFlag? (field : String) (v : Json.Value) : Option (Bool × String) :=
  match flagOfNumber? v with
  | some (b, text) =>
    some (b, "Field '" ++ field ++ "' converted from number " ++ text ++ " to bool.")
  | none =>
    match v with
    | .str s => (flagOfWord? s).map fun b =>
      (b, "Field '" ++ field ++ "' converted from '" ++ s ++ "' to " ++
        (if b then "True" else "False") ++ ".")
    | _ => none

def checkFlag (policy : Policy) (field : String) (fallback : Bool) (v : Json.Value) :
    Checked Bool :=
  match v with
  | .bool b => .ok (b, [])
  | .null => .ok (fallback, [])
  | v =>
    match policy, convertFlag? field v with
    | .lenient, some (b, warning) => .ok (b, [warning])
    | _, _ => complain policy (.wrongType field "bool" v.typeName) fallback

def convertInt? (field : String) : Json.Value → Option (Int × String)
  | .str s => (Text.readInt? (Text.trim s)).map fun n =>
    (n, "Field '" ++ field ++ "' converted from '" ++ s ++ "' to " ++ toString n ++ ".")
  | _ => none

def checkInt (policy : Policy) (field : String) (fallback : Int) (v : Json.Value) :
    Checked Int :=
  match v with
  | .int n => .ok (n, [])
  | .null => .ok (fallback, [])
  | v =>
    match policy, convertInt? field v with
    | .lenient, some (n, warning) => .ok (n, [warning])
    | _, _ => complain policy (.wrongType field "int" v.typeName) fallback

def checkFreeText (policy : Policy) (field : String) (v : Json.Value) : Checked String :=
  match v with
  | .null => .ok ("", [])
  | .str s => .ok (Text.trim s, [])
  | v => complain policy (.wrongType field "str" v.typeName) ""

def checkLevel (policy : Policy) (name : String) : Checked Level :=
  match Level.ofSetting? name with
  | some level => .ok (level, [])
  | none => complain policy (.badLevel name) .warning

/-- A working directory must exist, unless a marker leaves it open until a file is known. -/
def checkWorkingDirectory (policy : Policy) (h : Host) (path : String) : Checked String :=
  if path.isEmpty || Marker.occurs path || h.isDir path then .ok (path, [])
  else complain policy (.badWorkingDirectory path) ""

def unknownNames (members : List (String × Json.Value)) : List String :=
  ((members.map Prod.fst).filter fun n => !names.contains n).mergeSort fun a b => a ≤ b

def unknownWarning (name : String) : String := "Unknown config key '" ++ name ++ "' ignored."

/-- Checks the members of a settings object, laid over the defaults. -/
def checkMembers (policy : Policy) (h : Host) (members : List (String × Json.Value)) :
    Except Complaint (Settings × List String) := do
  let base := Settings.default h.cwd
  let merged := Json.insertAll base.members members
  let value (name : String) : Json.Value := (merged.lookup name).getD .null
  let (rootPath, w₁) ← checkText policy "root_path" base.rootPath (value "root_path")
  let (filePattern, w₂) ←
    checkText policy "file_pattern" base.filePattern (value "file_pattern")
  let (levelName, w₃) ← checkText policy "log_level" base.logLevel.name (value "log_level")
  let (recurse, w₄) ← checkFlag policy "recurse" base.recurse (value "recurse")
  let (reportFileName, w₅) ←
    checkFlag policy "report_file_name" base.reportFileName (value "report_file_name")
  let (verbose, w₆) ← checkFlag policy "verbose" base.verbose (value "verbose")
  let (collectStdout, w₇) ←
    checkFlag policy "collect_stdout" base.collectStdout (value "collect_stdout")
  let (collectStderr, w₈) ←
    checkFlag policy "collect_stderr" base.collectStderr (value "collect_stderr")
  let (passCode, w₉) ← checkInt policy "pass_code" base.passCode (value "pass_code")
  let (working, w₁₀) ← checkFreeText policy "working_directory" (value "working_directory")
  let (logLevel, w₁₁) ← checkLevel policy levelName
  let (workingDirectory, w₁₂) ← checkWorkingDirectory policy h working
  let settings : Settings :=
    { rootPath, filePattern, recurse, workingDirectory, passCode, reportFileName, verbose,
      logLevel
      collectStdout := verbose || collectStdout
      collectStderr := verbose || collectStderr }
  return (settings, w₁ ++ w₂ ++ w₃ ++ w₄ ++ w₅ ++ w₆ ++ w₇ ++ w₈ ++ w₉ ++ w₁₀ ++ w₁₁ ++ w₁₂ ++
    (unknownNames merged).map unknownWarning)

def validate (policy : Policy) (h : Host) (config : Json.Value) : Checked Settings :=
  match config with
  | .obj members => checkMembers policy h members
  | v => complain policy (.notAnObject v.typeName) (Settings.default h.cwd)

/-- What the lenient check logs besides its warnings. -/
def validationLog (config : Json.Value) : List Record :=
  match config with
  | .obj _ => []
  | v => [⟨.warning, (Complaint.notAnObject v.typeName).message⟩]

/-- The lenient check, which always gives settings. -/
def sanitize (h : Host) (config : Json.Value) : Settings × List String :=
  match validate .lenient h config with
  | .ok result => result
  | .error _ => (Settings.default h.cwd, [])

end Settings
end FileSweep
