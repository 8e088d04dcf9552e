import FileSweep.Shell.Lexer

/-! Reading the structure of a script from its tokens. -/
namespace FileSweep
namespace Shell

inductive SyntaxError where
  /-- A quote or an expansion is left open. -/
  | unterminated
  /-- A token that cannot stand where it does, or the end of the script. -/
  | unexpected (found : Option Token) (expected : Option String)
  deriving DecidableEq, Repr

/-- The reserved word that a token spells, if any part of it could be one. -/
def bareWord? : Token → Option String
  | .word _ [.text cs false] => some (String.ofList cs)
  | _ => none

def closers : List String := ["then", "else", "elif", "fi", "do", "done", "esac", "\x7d"]

def openers : List String := ["!", "\x7b", "case", "for", "if", "in", "until", "while"]

def inMarks (s : String) : String := "\"" ++ s ++ "\""

def tokenName : Option Token → String
  | none => "end of file"
  | some (.newline _) => "newline"
  | some (.redirect _ _ _) => "redirection"
  | some (.operator _ s) => inMarks s
  | some t =>
    match bareWord? t with
    | some s => if closers.contains s || openers.contains s then inMarks s else "word"
    | none => "word"

/-- The line of a script of `last` lines on which an error shows. -/
def SyntaxError.line (last : Nat) : SyntaxError → Nat
  | unterminated => last
  | unexpected (some t) _ => if t.isNewline then t.line + 1 else t.line
  | unexpected none _ => last

def SyntaxError.message : SyntaxError → String
  | unterminated => "Syntax error: Unterminated quoted string"
  | unexpected found expected =>
    "Syntax error: " ++ tokenName found ++ " unexpected" ++
      match expected with
      | some s => " (expecting " ++ inMarks s ++ ")"
      | none => ""

abbrev Reading := Except SyntaxError

abbrev Read (α : Type) := α × List Token

def refuse {α : Type} (ts : List Token) (expected : Option String) : Reading α :=
  match ts with
  | .leftOpen _ :: _ => .error .unterminated
  | _ => .error (.unexpected ts.head? expected)

def startsWithWord (ts : List Token) (word : String) : Bool :=
  match ts with
  | t :: _ => bareWord? t == some word
  | [] => false

def afterWord (word : String) (ts : List Token) : Reading (List Token) :=
  if startsWithWord ts word then .ok (ts.drop 1) else refuse ts (some word)

def skipNewlines (ts : List Token) : List Token := ts.dropWhile Token.isNewline

/-- A line end or a semicolon may stand before the body of a loop. -/
def skipSeparators (ts : List Token) : List Token :=
  ts.dropWhile fun t => t.isNewline || t.isOperator ";"

def endsList (ts : List Token) : Bool :=
  match ts with
  | [] => true
  | .operator _ s :: _ => s == ")" || s == ";;"
  | t :: _ => (bareWord? t).any closers.contains

def assignment? : Word → Option (List Char × Word)
  | .text cs false :: rest =>
    let name := cs.takeWhile isNameChar
    match name, cs.drop name.length with
    | c :: _, '=' :: value => if isNameStart c then some (name, plain value ++ rest) else none
    | _, _ => none
  | _ => none

def readRedirects : List Token → List Redirect × List Token
  | .redirect _ fd kind :: .word _ w :: rest =>
    let (rs, rest) := readRedirects rest
    (⟨fd, kind, w⟩ :: rs, rest)
  | ts => ([], ts)

def readSimple (line : Nat) : List Token → List (List Char × Word) → List Word →
    List Redirect → Reading (Read Script)
  | .redirect _ fd kind :: .word _ w :: rest, as, ws, rs =>
    readSimple line rest as ws (rs ++ [⟨fd, kind, w⟩])
  | .redirect _ _ _ :: rest, _, _, _ => refuse rest none
  | .word _ w :: rest, as, ws, rs =>
    match assignment? w, ws with
    | some a, [] => readSimple line rest (as ++ [a]) ws rs
    | _, _ => readSimple line rest as (ws ++ [w]) rs
  | ts, as, ws, rs =>
    if as.isEmpty && ws.isEmpty && rs.isEmpty then refuse ts none
    else .ok (.simple line as ws rs, ts)

def readWordList : List Token → List Word × List Token
  | .word _ w :: rest =>
    let (ws, rest) := readWordList rest
    (w :: ws, rest)
  | ts => ([], ts)

def readPatterns : List Token → Reading (Read (List Word))
  | .word _ w :: .operator line s :: rest =>
    if s = ")" then .ok ([w], rest)
    else if s = "|" then (readPatterns rest).map fun (ws, rest) => (w :: ws, rest)
    else refuse (.operator line s :: rest) (some ")")
  | .word _ _ :: rest => refuse rest (some ")")
  | ts => refuse ts none

/-- The error of a script that nests deeper than it is long. -/
def exhausted {α : Type} : Reading α := .error (.unexpected none none)

mutual

/-- Commands one after another; `needed` tells that there must be one unless the script
ends here. -/
def readList : Nat → Bool → List Token → Reading (Read Script)
  | 0, _, _ => exhausted
  | fuel + 1, needed, ts =>
    let ts := skipNewlines ts
    if endsList ts then if needed && !ts.isEmpty then refuse ts none else .ok (.skip, ts)
    else
      match readAndOr fuel ts with
      | .error e => .error e
      | .ok (first, t :: rest) =>
        if t.isNewline || t.isOperator ";" || t.isOperator "&" then
          match readList fuel false rest with
          | .error e => .error e
          | .ok (.skip, rest) => .ok (first, rest)
          | .ok (others, rest) => .ok (.seq first others, rest)
        else .ok (first, t :: rest)
      | .ok (first, []) => .ok (first, [])

def readAndOr : Nat → List Token → Reading (Read Script)
  | 0, _ => exhausted
  | fuel + 1, ts =>
    match readPipeline fuel ts with
    | .error e => .error e
    | .ok (first, rest) => readAndOrRest fuel first rest

def readAndOrRest : Nat → Script → List Token → Reading (Read Script)
  | 0, _, _ => exhausted
  | fuel + 1, first, ts =>
    match ts with
    | .operator _ s :: rest =>
      if s = "&&" || s = "||" then
        match readPipeline fuel (skipNewlines rest) with
        | .error e => .error e
        | .ok (second, rest) =>
          readAndOrRest fuel (if s = "&&" then .both first second else .either first second) rest
      else .ok (first, ts)
    | _ => .ok (first, ts)

def readPipeline : Nat → List Token → Reading (Read Script)
  | 0, _ => exhausted
  | fuel + 1, ts =>
    if startsWithWord ts "!" then
      (readPiped fuel (ts.drop 1)).map fun (s, rest) => (.negate s, rest)
    else readPiped fuel ts

def readPiped : Nat → List Token → Reading (Read Script)
  | 0, _ => exhausted
  | fuel + 1, ts =>
    match readCommand fuel ts with
    | .ok (first, .operator line s :: rest) =>
      if s = "|" then
        (readPiped fuel (skipNewlines rest)).map fun (s, rest) => (.pipe first s, rest)
      else .ok (first, .operator line s :: rest)
    | other => other

def readCommand : Nat → List Token → Reading (Read Script)
  | 0, _ => exhausted
  | fuel + 1, ts =>
    match ts with
    | .word line [.text name false] :: .operator _ "(" :: .operator _ ")" :: rest =>
      (readCommand fuel (skipNewlines rest)).map fun (body, rest) =>
        (.define line name body, rest)
    | .operator _ "(" :: rest =>
      match readList fuel true rest with
      | .error e => .error e
      | .ok (body, .operator _ ")" :: rest) =>
        let (rs, rest) := readRedirects rest
        .ok (.subshell body rs, rest)
      | .ok (_, rest) => refuse rest (some ")")
    | t :: rest =>
      match bareWord? t with
      | some "\x7b" => do
        let (body, rest) ← readList fuel true rest
        let rest ← afterWord "\x7d" rest
        let (rs, rest) := readRedirects rest
        return (.group body rs, rest)
      | some "while" => readLoop fuel false rest
      | some "until" => readLoop fuel true rest
      | some "if" => readBranch fuel rest
      | some "for" => readEach fuel rest
      | some "case" => readChoose fuel rest
      | some "in" => refuse ts none
      | some "!" => refuse ts none
      | _ => if endsList ts then refuse ts none else readSimple t.line ts [] [] []
    | [] => refuse [] none

def readLoop : Nat → Bool → List Token → Reading (Read Script)
  | 0, _, _ => exhausted
  | fuel + 1, untilTrue, ts => do
    let (condition, rest) ← readList fuel true ts
    let (body, rest) ← readBody fuel rest
    let (rs, rest) := readRedirects rest
    return (.group (.loop untilTrue condition body) rs, rest)

def readBody : Nat → List Token → Reading (Read Script)
  | 0, _ => exhausted
  | fuel + 1, ts => do
    let rest ← afterWord "do" ts
    let (body, rest) ← readList fuel true rest
    let rest ← afterWord "done" rest
    return (body, rest)

def readBranch : Nat → List Token → Reading (Read Script)
  | 0, _ => exhausted
  | fuel + 1, ts => do
    let (condition, rest) ← readList fuel true ts
    let rest ← afterWord "then" rest
    let (yes, rest) ← readList fuel true rest
    if startsWithWord rest "elif" then
      let (no, rest) ← readBranch fuel (rest.drop 1)
      return (.branch condition yes no, rest)
    else if startsWithWord rest "else" then
      let (no, rest) ← readList fuel true (rest.drop 1)
      let rest ← afterWord "fi" rest
      return (.branch condition yes no, rest)
    else
      let rest ← afterWord "fi" rest
      return (.branch condition yes .skip, rest)

def readEach : Nat → List Token → Reading (Read Script)
  | 0, _ => exhausted
  | fuel + 1, ts =>
    match ts with
    | .word _ [.text name false] :: rest => do
      let rest := skipNewlines rest
      let (words, rest) := if startsWithWord rest "in" then
          let (ws, rest) := readWordList (rest.drop 1)
          (some ws, rest)
        else (none, rest)
      let (body, rest) ← readBody fuel (skipSeparators rest)
      let (rs, rest) := readRedirects rest
      return (.group (.each name words body) rs, rest)
    | _ => refuse ts none

def readChoose : Nat → List Token → Reading (Read Script)
  | 0, _ => exhausted
  | fuel + 1, ts =>
    match ts with
    | .word _ subject :: rest => do
      let rest ← afterWord "in" (skipNewlines rest)
      let (arms, rest) ← readArms fuel rest
      return (.choose subject arms, rest)
    | _ => refuse ts none

def readArms : Nat → List Token → Reading (Read (List (List Word × Script)))
  | 0, _ => exhausted
  | fuel + 1, ts =>
    let ts := skipNewlines ts
    if startsWithWord ts "esac" then .ok ([], ts.drop 1)
    else do
      let ts := match ts with
        | .operator _ "(" :: rest => rest
        | _ => ts
      let (patterns, rest) ← readPatterns ts
      let (body, rest) ← readList fuel false rest
      match rest with
      | .operator _ ";;" :: rest =>
        let (arms, rest) ← readArms fuel rest
        return ((patterns, body) :: arms, rest)
      | _ =>
        let rest ← afterWord "esac" rest
        return ([(patterns, body)], rest)

end

/-- Commands separated by anything but a line end, up to the end of the line. -/
def readLineOf : Nat → List Token → Reading (Read Script)
  | 0, _ => exhausted
  | fuel + 1, ts =>
    match readAndOr fuel ts with
    | .error e => .error e
    | .ok (first, t :: rest) =>
      if t.isNewline then .ok (first, rest)
      else if t.isOperator ";" || t.isOperator "&" then
        match rest with
        | [] => .ok (first, [])
        | u :: others =>
          if u.isNewline then .ok (first, others)
          else (readLineOf fuel rest).map fun (second, rest) => (.seq first second, rest)
      else refuse (t :: rest) none
    | .ok (first, []) => .ok (first, [])

/-- Text read as commands: those that are whole, and why reading ended before the end. -/
structure Program where
  script : Script
  error : Option SyntaxError
  /-- The number of the last line. -/
  last : Nat

/-- Reads line after line, up to the first that is not well formed. -/
def readLines : Nat → List Token → Script × Option SyntaxError
  | 0, _ => (.skip, some (.unexpected none none))
  | fuel + 1, ts =>
    match skipNewlines ts with
    | [] => (.skip, none)
    | t :: rest =>
      match readLineOf (fuel + 1) (t :: rest) with
      | .error e => (.skip, some e)
      | .ok (first, rest) =>
        let (others, error) := readLines fuel rest
        (.seq first others, error)

def parse (text : List Char) : Program :=
  let last := 1 + lineBreaks text
  let ts := tokens last (2 * text.length + 2) text
  let (script, error) := readLines (8 * ts.length + 8) ts
  { script, error, last }

end Shell
end FileSweep
