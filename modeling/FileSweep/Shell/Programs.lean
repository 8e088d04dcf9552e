import FileSweep.Host.Files
import FileSweep.Text.Blank

/-! Finding the program that a name stands for: by its path or on the search path, through
the interpreters that files name in their first line. -/
namespace FileSweep
namespace Shell

inductive Executable where
  | program (name : String)
  | script (interpreter : String) (argument : Option String)
  deriving DecidableEq, Repr

/-- A program of the host, the name under which it runs, and its arguments. -/
structure Invocation where
  program : String
  name : String
  args : List String
  deriving DecidableEq, Repr

/-- The line that names an interpreter, without its mark. -/
def interpreterLine? (content : List UInt8) : Option String :=
  match content with
  | 35 :: 33 :: rest => some (Text.decodeLossy (rest.takeWhile (· != 10)))
  | _ => none

def interpreterOf (line : String) : Executable :=
  let cs := (line.toList.dropWhile fun c => c == ' ' || c == '\t')
  let name := cs.takeWhile fun c => c != ' ' && c != '\t'
  let rest := Text.trimChars (cs.drop name.length)
  .script (String.ofList name) (if rest.isEmpty then none else some (String.ofList rest))

def examine (h : Host) (path : String) : Except OsError Executable :=
  match h.locate path with
  | .error e => .error e
  | .ok (.free _ _) => .error .noEntry
  | .ok (.taken names) =>
    match h.root.at? names with
    | none => .error .noEntry
    | some e =>
      if !e.isExecutable then .error .denied
      else
        match e with
        | .program name => .ok (.program name)
        | .file content _ =>
          match interpreterLine? content with
          | some line => .ok (interpreterOf line)
          | none => .error .badFormat
        | _ => .error .denied

/-- The number of interpreters that may stand between a file and a program. -/
def interpreterLimit : Nat := 4

/-- Finds the program that executes the file at a path. `name` is what the program is
called by, unless an interpreter takes its place. -/
def resolveProgram (h : Host) : Nat → String → String → List String →
    Except OsError Invocation
  | 0, _, _, _ => .error .tooManyLinks
  | depth + 1, path, name, args =>
    match examine h path with
    | .error e => .error e
    | .ok (.program program) => .ok { program, name, args }
    | .ok (.script interpreter argument) =>
      if interpreter.isEmpty then .error .badFormat
      else resolveProgram h depth interpreter interpreter (argument.toList ++ path :: args)

def defaultSearchPath : String := "/usr/local/bin:/usr/bin:/bin"

def searchPaths (h : Host) (name : String) : List String :=
  if (Path.dir name).isEmpty then
    let dirs := ((h.environment.get? "PATH").getD defaultSearchPath).splitOn ":"
    dirs.map fun dir => Path.join dir name
  else [name]

/-- Tries paths in turn. A refusal other than a missing file is remembered, and the last
error counts otherwise. -/
def tryPaths (h : Host) (name : String) (args : List String) (last : OsError)
    (refusal : Option OsError) : List String → Except OsError Invocation
  | [] => .error (refusal.getD last)
  | path :: paths =>
    match resolveProgram h interpreterLimit path name args with
    | .ok found => .ok found
    | .error e =>
      let refusal := if e = .noEntry ∨ e = .notDirectory then refusal else refusal <|> some e
      tryPaths h name args e refusal paths

def findProgram (h : Host) (name : String) (args : List String) :
    Except OsError Invocation :=
  tryPaths h name args .noEntry none (searchPaths h name)

def programPath? (h : Host) (name : String) : Option String :=
  (searchPaths h name).find? fun path =>
    match resolveProgram h interpreterLimit path name [] with
    | .ok _ => true
    | .error e => e = .badFormat

end Shell
end FileSweep
