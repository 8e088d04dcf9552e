import FileSweep.Host.Files
import FileSweep.Shell.Parser
import FileSweep.Shell.Tools

/-! The state of a running script: its parameters and variables, its descriptors, and what
it has written so far. -/
namespace FileSweep
namespace Shell

inductive Channel where
  | out
  | err
  | file (names : List String)
  | nowhere
  deriving DecidableEq, Repr

structure State where
  /-- The host, with the script's working directory as its current one. -/
  host : Host
  name : List Char := "sh".toList
  /-- The line of the current command, and the lines before the function that runs. -/
  line : Nat := 1
  linesAbove : Nat := 0
  params : List (List Char) := []
  bindings : List (List Char × List Char) := []
  /-- The variables that processes inherit. -/
  exported : List (List Char) := []
  /-- The functions, each with the line on which it begins. -/
  functions : List (List Char × Nat × Script) := []
  /-- What is run when a signal comes, or at the end of the script under the name `EXIT`. -/
  traps : List (String × List Char) := []
  status : Int := 0
  input : List UInt8 := []
  /-- The standard output so far, its last byte first. -/
  out : List UInt8 := []
  /-- The error output so far, its last byte first. -/
  err : List UInt8 := []
  stdout : Channel := .out
  stderr : Channel := .err
  /-- A failing command ends the script, unless it is being tested. -/
  strict : Bool := false
  tested : Bool := false
  /-- A parameter that is not set ends the script. -/
  demanding : Bool := false
  /-- The variables that the running function has made its own, with their values before. -/
  locals : List (List Char × Option (List Char)) := []
  /-- The number of loops around the current command. -/
  loops : Nat := 0
  /-- An expansion has gone wrong, which ends the script. -/
  broken : Bool := false

/-- How a command ends: normally, by leaving the script, a function or a number of loops,
or by a signal. -/
inductive Flow where
  | go
  | leave
  | returned
  | broke (loops : Nat)
  | continued (loops : Nat)
  | signalled (number : Nat)
  deriving DecidableEq, Repr

def processId : List Char := "4242".toList

namespace State

/-- Writes bytes. What a file does not take is lost without a word. -/
def write (s : State) (c : Channel) (bytes : List UInt8) : State :=
  match c with
  | .out => { s with out := bytes.reverse ++ s.out }
  | .err => { s with err := bytes.reverse ++ s.err }
  | .file names =>
    if (s.host.refusal? names bytes).isSome then s
    else { s with host := s.host.appendAt names bytes }
  | .nowhere => s

def print (s : State) (bytes : List UInt8) : State := s.write s.stdout bytes

def complain (s : State) (message : String) (status : Int) : State :=
  { s.write s.stderr (Text.encode (message ++ "\n")) with status }

/-- A complaint that begins with the name of the script. -/
def complainHere (s : State) (message : String) (status : Int) : State :=
  s.complain (String.ofList s.name ++ ": " ++ toString s.line ++ ": " ++ message) status

def breakOff (s : State) (message : String) : State :=
  { s.complainHere message 2 with broken := true }

def assign (s : State) (name value : List Char) : State :=
  { s with bindings := (name, value) :: s.bindings.filter fun v => v.1 != name }

def drop (s : State) (name : List Char) : State :=
  { s with
    bindings := s.bindings.filter fun v => v.1 != name
    exported := s.exported.filter fun n => n != name
    host := { s.host with environment := s.host.environment.drop (String.ofList name) } }

/-- The value of a variable, whether the script has set it or inherits it. -/
def lookup? (s : State) (name : List Char) : Option (List Char) :=
  s.bindings.lookup name <|>
    (s.host.environment.get? (String.ofList name)).map String.toList

def value? (s : State) (name : List Char) : Option (List Char) :=
  match name with
  | ['?'] => some (toString s.status).toList
  | ['$'] => some processId
  | ['#'] => some (toString s.params.length).toList
  | ['0'] => some s.name
  | ['*'] => if s.params.isEmpty then none else some (spaced s.params)
  | ['@'] => if s.params.isEmpty then none else some (spaced s.params)
  | ['!'] => none
  | ['-'] => some []
  | cs => if cs.all Char.isDigit then s.params[digitsValue cs - 1]? else s.lookup? cs

def value (s : State) (name : List Char) : List Char := (s.value? name).getD []

/-- The characters at which values are split into fields. -/
def separators (s : State) : List Char := (s.bindings.lookup "IFS".toList).getD [' ', '\t', '\n']

def inherited (s : State) : Environment :=
  let own := s.bindings.filter fun v =>
    s.exported.contains v.1 || (s.host.environment.get? (String.ofList v.1)).isSome
  { s.host.environment with
    values := own.map (fun v => (String.ofList v.1, String.ofList v.2)) ++
      s.host.environment.values }

def child (s : State) : State :=
  { host := { s.host with environment := s.inherited }
    input := s.input, out := s.out, err := s.err, stdout := s.stdout, stderr := s.stderr }

/-- The state after a process: what it has read, written and changed on the host. -/
def absorb (s t : State) : State :=
  { s with
    host := { t.host with cwd := s.host.cwd, environment := s.host.environment }
    input := t.input
    out := t.out
    err := t.err }

/-- Gives the variables of a function back the values that they had before it. -/
def restoreLocals (s : State) : State :=
  s.locals.foldl (fun s l =>
    match l.2 with
    | some v => s.assign l.1 v
    | none => { s with bindings := s.bindings.filter fun v => v.1 != l.1 }) s

/-- Makes a variable the running function's own, with a value if one is given. -/
def makeLocal (s : State) (arg : List Char) : State :=
  let name := arg.takeWhile isNameChar
  let s := { s with locals := (name, s.bindings.lookup name) :: s.locals }
  match arg.drop name.length with
  | '=' :: value => s.assign name value
  | _ => s

def restoreVariables (s before : State) (names : List (List Char)) : State :=
  names.foldl (fun s name =>
    match before.bindings.lookup name with
    | some v => s.assign name v
    | none => { s with bindings := s.bindings.filter fun v => v.1 != name })
    { s with exported := before.exported }

end State
end Shell
end FileSweep
