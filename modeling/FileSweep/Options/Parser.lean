import FileSweep.Options.Basic
import FileSweep.Text.Digits
import FileSweep.Text.Quoted

/-! Reading the options of a command line. They may stand between the positional
arguments, and a long option may be shortened as long as no other begins like it. -/
namespace FileSweep

inductive UsageError where
  | ambiguous (option : String) (spellings : List String)
  | missingValue (flag : Flag)
  | unexpectedValue (flag : Flag) (value : String)
  | notInteger (flag : Flag) (value : String)
  | unrecognized (arguments : List String)
  deriving DecidableEq, Repr

def UsageError.message : UsageError → String
  | ambiguous option spellings =>
    "ambiguous option: " ++ option ++ " could match " ++ String.intercalate ", " spellings
  | missingValue flag => "argument " ++ flag.title ++ ": expected one argument"
  | unexpectedValue flag value =>
    "argument " ++ flag.title ++ ": ignored explicit argument " ++ Text.quoted value
  | notInteger flag value =>
    "argument " ++ flag.title ++ ": invalid int value: " ++ Text.quoted value
  | unrecognized arguments =>
    "unrecognized arguments: " ++ String.intercalate " " arguments

inductive UsageStop where
  | help
  | error (e : UsageError)
  deriving DecidableEq, Repr

/-- What comes with an option in one argument: nothing, further characters, or a value
after an equals sign. -/
inductive Attachment where
  | nothing
  | joined (text : String)
  | assigned (value : String)
  deriving DecidableEq, Repr

inductive ArgumentKind where
  | positional
  | option (flag : Flag) (attachment : Attachment)
  | unknownOption
  deriving DecidableEq, Repr

/-- What an equals sign leaves to an option: a long one takes a value, while the letters
of a short one go on behind the sign. -/
def Attachment.afterEquals (argument value : String) : Attachment :=
  if "--".toList.isPrefixOf argument.toList then .assigned value else .joined value

namespace Arguments

def splitEquals? (s : String) : Option (String × String) :=
  let cs := s.toList
  let name := cs.takeWhile (· != '=')
  if name.length < cs.length then
    some (String.ofList name, String.ofList (cs.drop (name.length + 1)))
  else none

def startsWith (s start : String) : Bool := start.toList.isPrefixOf s.toList

/-- The options that an argument may be short for, with their spellings and what comes
with them. -/
def candidates (s : String) : List (Flag × String × Attachment) :=
  if startsWith s "--" then
    let (name, attachment) : String × Attachment := match splitEquals? s with
      | some (name, value) => (name, .assigned value)
      | none => (s, .nothing)
    Flag.table.filterMap fun (spelling, flag) =>
      if startsWith spelling name then some (flag, spelling, attachment) else none
  else
    let short := String.ofList (s.toList.take 2)
    Flag.table.filterMap fun (spelling, flag) =>
      if spelling = short then
        some (flag, spelling, .joined (String.ofList (s.toList.drop 2)))
      else if startsWith spelling s then some (flag, spelling, .nothing)
      else none

def isDecimal (cs : List Char) : Bool := cs.all fun c => (Text.digitValue? c).isSome

def dropLineEnd (cs : List Char) : List Char :=
  if cs.getLast? = some '\n' then cs.dropLast else cs

def isNegativeNumber (s : String) : Bool :=
  match dropLineEnd s.toList with
  | '-' :: cs =>
    let whole := cs.takeWhile (· != '.')
    match cs.drop whole.length with
    | [] => !whole.isEmpty && isDecimal whole
    | _ :: frac => isDecimal whole && !frac.isEmpty && isDecimal frac
  | _ => false

def classify (s : String) : Except UsageError ArgumentKind :=
  match s.toList with
  | [] => .ok .positional
  | c :: cs =>
    if c != '-' then .ok .positional
    else
      match Flag.table.lookup s with
      | some flag => .ok (.option flag .nothing)
      | none =>
        if cs.isEmpty then .ok .positional
        else
          let exact := (splitEquals? s).bind fun (name, value) =>
            (Flag.table.lookup name).map fun flag => (flag, value)
          match exact with
          | some (flag, value) => .ok (.option flag (Attachment.afterEquals s value))
          | none =>
            match candidates s with
            | _ :: _ :: _ => .error (.ambiguous s ((candidates s).map fun c => c.2.1))
            | [(flag, _, attachment)] => .ok (.option flag attachment)
            | [] =>
              if isNegativeNumber s || s.toList.contains ' ' then .ok .positional
              else .ok .unknownOption

def classifyAll : List String → Except UsageError (List (String × ArgumentKind))
  | [] => .ok []
  | a :: as =>
    match classify a with
    | .error e => .error e
    | .ok kind => (classifyAll as).map fun rest => (a, kind) :: rest

def setFlag (a : Arguments) : Flag → Except UsageStop Arguments
  | .help => .error .help
  | .norecurse => .ok { a with norecurse := true }
  | .repfile => .ok { a with repfile := true }
  | .verbose => .ok { a with verbose := true }
  | .dumpConfig => .ok { a with dumpConfig := true }
  | .debug => .ok { a with debug := true }
  | _ => .ok a

def setValue (a : Arguments) (flag : Flag) (value : String) : Except UsageStop Arguments :=
  match flag with
  | .working => .ok { a with workingDirectory := some value }
  | .config => .ok { a with configFile := some value }
  | .logFile => .ok { a with logFile := some value }
  | .pass =>
    match Text.readInt? value with
    | some n => .ok { a with passCode := some n }
    | none => .error (.error (.notInteger flag value))
  | _ => .ok a

/-- Where the characters joined to a short option lead. Help is the only short option, so
that letters can do no more than repeat it, and no help is shown before all were read. -/
def readLetters : List Char → UsageStop
  | ['h'] => .help
  | 'h' :: c :: cs => readLetters (c :: cs)
  | cs => .error (.unexpectedValue .help (String.ofList cs))

/-- Reads the options and leaves what is no option's: the arguments set and the rest in
order. -/
def readOptions : Arguments → List (String × ArgumentKind) →
    Except UsageStop (Arguments × List String)
  | a, [] => .ok (a, [])
  | a, (text, .positional) :: rest =>
    (readOptions a rest).map fun (a, left) => (a, text :: left)
  | a, (text, .unknownOption) :: rest =>
    (readOptions a rest).map fun (a, left) => (a, text :: left)
  | _, (_, .option _ (.joined text)) :: _ => .error (readLetters text.toList)
  | a, (_, .option flag (.assigned value)) :: rest =>
    if flag.takesValue then
      match setValue a flag value with
      | .error e => .error e
      | .ok a => readOptions a rest
    else .error (.error (.unexpectedValue flag value))
  | a, (_, .option flag .nothing) :: rest =>
    if flag.takesValue then
      match rest with
      | (value, .positional) :: rest =>
        match setValue a flag value with
        | .error e => .error e
        | .ok a => readOptions a rest
      | _ => .error (.error (.missingValue flag))
    else
      match setFlag a flag with
      | .error e => .error e
      | .ok a => readOptions a rest

/-- Gives the first run of positional arguments to the directory and the pattern. What is
left is not understood. -/
def readPositionals (a : Arguments) (items : List (String × ArgumentKind)) :
    Arguments × List String :=
  let before := items.takeWhile fun i => i.2 != .positional
  let after := items.dropWhile fun i => i.2 != .positional
  let texts (xs : List (String × ArgumentKind)) : List String := xs.map Prod.fst
  match after with
  | [] => (a, texts before)
  | (first, _) :: rest =>
    match rest with
    | (second, .positional) :: rest =>
      ({ a with dir := some first, files := some second }, texts before ++ texts rest)
    | _ => ({ a with dir := some first }, texts before ++ texts rest)

def parse (args : List String) : Except UsageStop Arguments :=
  match classifyAll args with
  | .error e => .error (.error e)
  | .ok items =>
    match readOptions {} items with
    | .error e => .error e
    | .ok (a, left) =>
      match classifyAll left with
      | .error e => .error (.error e)
      | .ok items =>
        match readPositionals a items with
        | (a, []) => .ok a
        | (_, extras) => .error (.error (.unrecognized extras))

end Arguments

def UsageError.report (e : UsageError) : String :=
  Help.usage ++ Help.programName ++ ": error: " ++ e.message ++ "\n"

end FileSweep
