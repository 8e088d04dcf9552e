import FileSweep.Shell.State

/-! The commands that a script runs within itself and that run no further script, and the
programs that every host provides. -/
namespace FileSweep
namespace Shell

def physicalDir (h : Host) : String :=
  match h.locate h.cwd with
  | .ok (.taken names) => "/" ++ String.intercalate "/" names
  | _ => h.cwd

/-- A file's name in a complaint, in quotation marks if a shell would not read it as it is. -/
def guarded (file : List Char) : String :=
  let safe (c : Char) : Bool :=
    c.isAlphanum || "_-./,:+@%~#]\x7b\x7d?".toList.contains c || c.toNat > 127
  if file.all safe && !file.isEmpty then String.ofList file
  else if file.contains '\'' then String.ofList ('"' :: file ++ ['"'])
  else String.ofList ('\'' :: file ++ ['\''])

/-- Prints files, or the input where there is a dash. `name` is what complaints begin with. -/
def cat (name : String) (s : State) : List (List Char) → State
  | [] => s
  | file :: files =>
    if file = ['-'] then cat name { s.print s.input with input := [] } files
    else
      let path := String.ofList file
      match s.host.readBytes path with
      | .ok bytes => cat name (s.print bytes) files
      | .error (.os e _) =>
        cat name (s.complain (name ++ ": " ++ guarded file ++ ": " ++ e.text) 1) files
      | .error _ => cat name s files

def dropTrailing (p : Char → Bool) (cs : List Char) : List Char :=
  (cs.reverse.dropWhile p).reverse

/-- Splits a line among variables; the last one takes what is left. -/
def assignFields (s : State) : List (List Char) → List Char → State
  | [], _ => s
  | name :: names, cs =>
    let isBlank (c : Char) : Bool := c.isWhitespace && s.separators.contains c
    let cs := cs.dropWhile isBlank
    if names.isEmpty then s.assign name (dropTrailing isBlank cs)
    else
      let field := cs.takeWhile fun c => !s.separators.contains c
      let rest := (cs.drop field.length).dropWhile isBlank
      let rest := match rest with
        | c :: more => if s.separators.contains c then more else rest
        | [] => []
      assignFields (s.assign name field) names rest

/-- The first line of the input, what follows it, and whether it was ended. Where
backslashes count, one joins lines and otherwise drops out. -/
def takeLine (raw : Bool) : List UInt8 → List UInt8 × List UInt8 × Bool
  | [] => ([], [], false)
  | 92 :: b :: bs =>
    let (line, rest, ended) := takeLine raw bs
    if raw then
      if b = 10 then ([92], bs, true) else (92 :: b :: line, rest, ended)
    else if b = 10 then (line, rest, ended)
    else (b :: line, rest, ended)
  | b :: bs =>
    if b = 10 then ([], bs, true)
    else
      let (line, rest, ended) := takeLine raw bs
      (b :: line, rest, ended)

def readLine (s : State) (args : List (List Char)) : State :=
  let names := args.filter fun a => a != ['-', 'r']
  if names.isEmpty then s.complainHere "read: arg count" 2
  else
    let (line, rest, ended) := takeLine (args.contains ['-', 'r']) s.input
    let s := assignFields { s with input := rest } names (Text.decodeLossyChars line)
    { s with status := if ended then 0 else 1 }

def statusArgument? (cs : List Char) : Option Int :=
  if cs.isEmpty || !cs.all Char.isDigit then none else some (digitsValue cs : Int)

def illegalNumber (command : String) (cs : List Char) : String :=
  command ++ ": Illegal number: " ++ String.ofList cs

def switchOptions (s : State) (letters : List Char) (on : Bool) : State :=
  { s with
    strict := if letters.contains 'e' then on else s.strict
    demanding := if letters.contains 'u' then on else s.demanding }

def setOptions (s : State) : List (List Char) → State
  | [] => s
  | ['-', '-'] :: params => { s with params }
  | ('-' :: flags) :: rest =>
    setOptions (switchOptions s flags true) rest
  | ('+' :: flags) :: rest => setOptions (switchOptions s flags false) rest
  | params => { s with params }

/-- Marks variables as inherited, giving values to those that come with one. -/
def exportVariables (s : State) : List (List Char) → State
  | [] => s
  | arg :: args =>
    let name := arg.takeWhile isNameChar
    if !(name.head?.any isNameStart) then
      { s.complainHere ("export: " ++ String.ofList arg ++ ": bad variable name") 2 with
        broken := true }
    else
      let s := match arg.drop name.length with
        | '=' :: value => s.assign name value
        | _ => s
      exportVariables { s with exported := name :: s.exported } args

def changeDir (s : State) (args : List (List Char)) : State :=
  let dir := match args with
    | [] => String.ofList (s.value "HOME".toList)
    | dir :: _ => if dir = ['-'] then String.ofList (s.value "OLDPWD".toList) else String.ofList dir
  if s.host.isDir dir then
    let here := s.host.cwd
    let s := { s with host := { s.host with cwd := s.host.absolute dir }, status := 0 }
    let s := (s.assign "OLDPWD".toList here.toList).assign "PWD".toList s.host.cwd.toList
    if args = [['-']] then s.print (Text.encode (s.host.cwd ++ "\n")) else s
  else s.complainHere ("cd: can't cd to " ++ dir) 2

def printFormat (s : State) : List (List Char) → State
  | [] => s.complainHere "printf: usage: printf format [arg ...]" 2
  | form :: args =>
    let made := printf form args
    let s := s.print made.bytes
    made.complaints.foldl (fun s c => s.complainHere ("printf: " ++ c) 1) { s with status := 0 }

def runTest (s : State) (name : String) (args : List (List Char)) : State :=
  match test s.host (args.length + 1) args with
  | .ok b => { s with status := if b then 0 else 1 }
  | .error e => s.complainHere (name ++ ": " ++ e) 2

def runBracket (s : State) (args : List (List Char)) : State :=
  if args.getLast? = some [']'] then runTest s "[" args.dropLast
  else s.complainHere "[: missing ]" 2

/-- Runs a command that only changes the state. -/
def plainBuiltin? (s : State) (name : String) (args : List (List Char)) : Option State :=
  let good (s : State) : Option State := some { s with status := 0 }
  match name with
  | ":" => good s
  | "true" => good s
  | "false" => some { s with status := 1 }
  | "echo" => good (s.print (echoBuiltin args))
  | "printf" => some (printFormat s args)
  | "pwd" => good (s.print (Text.encode (physicalDir s.host ++ "\n")))
  | "test" => some (runTest s "test" args)
  | "[" => some (runBracket s args)
  | "read" => some (readLine s args)
  | "cd" => some (changeDir s args)
  | "export" => some (exportVariables { s with status := 0 } args)
  | "readonly" => good s
  | "unset" =>
    good (args.foldl (fun s name =>
      if name = ['-', 'f'] || name = ['-', 'v'] then s
      else { s.drop name with functions := s.functions.filter fun f => f.1 != name }) s)
  | "set" => good (setOptions s args)
  | "local" => good (args.foldl State.makeLocal s)
  | "umask" => good s
  | "wait" => good s
  | _ => none

def programDir : Entry :=
  .dir (["sh", "cat", "echo", "printf", "pwd", "true", "false", "test", "[", "sleep", "env"].map
    fun name => (name, .program name))

/-- What the programs of the host do, the shell aside. -/
def runTool (program name : String) (args : List (List Char)) (s : State) : State :=
  match program with
  | "cat" => cat name { s with status := 0 } (if args.isEmpty then [['-']] else args)
  | "echo" => { s.print (echoProgram args) with status := 0 }
  | "sleep" => { s with status := 0 }
  | _ => (plainBuiltin? s program args).getD { s with status := 0 }

end Shell
end FileSweep
