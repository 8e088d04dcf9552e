import FileSweep.Shell.Syntax

/-! Reading the words and operators of a script. -/
namespace FileSweep
namespace Shell

/-- A token, with the line on which it begins. -/
inductive Token where
  | word (line : Nat) (w : Word)
  | operator (line : Nat) (symbol : String)
  /-- A redirection operator with the descriptor that it redirects. -/
  | redirect (line : Nat) (fd : Nat) (kind : RedirectKind)
  | newline (line : Nat)
  /-- The place where a quote or an expansion is left open. -/
  | leftOpen (line : Nat)
  deriving DecidableEq, Repr

namespace Token

def line : Token → Nat
  | word n _ => n
  | operator n _ => n
  | redirect n _ _ => n
  | newline n => n
  | leftOpen n => n

def isNewline : Token → Bool
  | newline _ => true
  | _ => false

def isOperator (symbol : String) : Token → Bool
  | operator _ s => s == symbol
  | _ => false

end Token

def isNameStart (c : Char) : Bool := c.isAlpha || c == '_'

def isNameChar (c : Char) : Bool := c.isAlphanum || c == '_'

def isSpecialName (c : Char) : Bool := "@*#?$!-0123456789".toList.contains c

def isMeta (c : Char) : Bool := " \t\n;&|()<>".toList.contains c

/-- The text up to the bracket that closes one already open, and what follows it. `quote`
is the quotation mark open, and `depth` counts the brackets opened since. -/
def closing (opener closer : Char) : Option Char → Nat → List Char →
    Option (List Char × List Char)
  | _, _, [] => none
  | quote, depth, c :: cs =>
    let more (quote : Option Char) (depth : Nat) : Option (List Char × List Char) :=
      (closing opener closer quote depth cs).map fun (inner, rest) => (c :: inner, rest)
    match quote with
    | some q => more (if c = q then none else some q) depth
    | none =>
      if c = '"' || c = '\'' then more (some c) depth
      else if c = opener then more none (depth + 1)
      else if c = closer then
        match depth with
        | 0 => some ([], cs)
        | d + 1 => more none d
      else more none depth

def closeParen (cs : List Char) : Option (List Char × List Char) := closing '(' ')' none 0 cs

/-- The text up to a closing backquote, its escapes undone, and what follows it. -/
def closeBackquote : List Char → Option (List Char × List Char)
  | [] => none
  | '\\' :: c :: cs =>
    let kept := if "$\x60\\".toList.contains c then [c] else ['\\', c]
    (closeBackquote cs).map fun (inner, rest) => (kept ++ inner, rest)
  | c :: cs =>
    if c = '\x60' then some ([], cs)
    else (closeBackquote cs).map fun (inner, rest) => (c :: inner, rest)

def readExpansion (quoted : Bool) (cs : List Char) : Option (Part × List Char) :=
  match cs with
  | '(' :: '(' :: rest =>
    match closeParen rest with
    | some (expr, ')' :: after) => some (.arith expr quoted, after)
    | _ => none
  | '(' :: rest => (closeParen rest).map fun (script, after) => (.command script quoted, after)
  | '\x7b' :: rest =>
    (closing '\x7b' '\x7d' none 0 rest).map fun (content, after) =>
      (.braced content quoted, after)
  | c :: rest =>
    if isNameStart c then
      some (.param (c :: rest.takeWhile isNameChar) quoted, rest.dropWhile isNameChar)
    else if isSpecialName c then some (.param [c] quoted, rest)
    else none
  | [] => none

def readQuoted : Nat → List Char → List Char → Option (Word × List Char)
  | 0, _, _ => none
  | fuel + 1, acc, cs =>
    match cs with
    | [] => none
    | '"' :: rest => some ([.text acc true], rest)
    | '\\' :: c :: rest =>
      if c = '\n' then readQuoted fuel acc rest
      else if "$\x60\"\\".toList.contains c then readQuoted fuel (acc ++ [c]) rest
      else readQuoted fuel (acc ++ ['\\', c]) rest
    | '\x60' :: rest =>
      match closeBackquote rest with
      | none => none
      | some (script, after) =>
        (readQuoted fuel [] after).map fun (w, rest) =>
          (.text acc true :: .command script true :: w, rest)
    | '$' :: rest =>
      match readExpansion true rest with
      | some (part, after) =>
        (readQuoted fuel [] after).map fun (w, rest) => (.text acc true :: part :: w, rest)
      | none => readQuoted fuel (acc ++ ['$']) rest
    | c :: rest => readQuoted fuel (acc ++ [c]) rest

def plain (acc : List Char) : Word := if acc.isEmpty then [] else [.text acc false]

/-- Reads a word up to the next unquoted separator, or all of the text as one word. -/
def readWord (all : Bool) : Nat → List Char → List Char → Option (Word × List Char)
  | 0, _, _ => none
  | fuel + 1, acc, cs =>
    let goOn (parts : Word) (rest : List Char) : Option (Word × List Char) :=
      (readWord all fuel [] rest).map fun (w, rest) => (plain acc ++ parts ++ w, rest)
    match cs with
    | [] => some (plain acc, [])
    | '\\' :: '\n' :: rest => readWord all fuel acc rest
    | '\\' :: c :: rest => goOn [.text [c] true] rest
    | '\'' :: rest =>
      let inner := rest.takeWhile (· != '\'')
      match rest.drop inner.length with
      | _ :: after => goOn [.text inner true] after
      | [] => none
    | '"' :: rest =>
      match readQuoted fuel [] rest with
      | none => none
      | some (inner, after) => goOn inner after
    | '\x60' :: rest =>
      match closeBackquote rest with
      | none => none
      | some (script, after) => goOn [.command script false] after
    | '$' :: rest =>
      match readExpansion false rest with
      | some (part, after) => goOn [part] after
      | none => readWord all fuel (acc ++ ['$']) rest
    | c :: rest =>
      if !all && isMeta c then some (plain acc, cs) else readWord all fuel (acc ++ [c]) rest

/-- The word that a text inside an expansion is. -/
def innerWord (quoted : Bool) (cs : List Char) : Word :=
  let read := if quoted then readQuoted (cs.length + 2) [] (cs ++ ['"'])
    else readWord true (cs.length + 1) [] cs
  match read with
  | some (w, _) => w
  | none => [.text cs true]

def digitsValue (cs : List Char) : Nat := cs.foldl (fun n c => n * 10 + (c.toNat - 48)) 0

def redirection? (line : Nat) (cs : List Char) : Option (Token × List Char) :=
  let token (fd : Nat) (kind : RedirectKind) : Token := .redirect line fd kind
  let digits := cs.takeWhile Char.isDigit
  let fd (usual : Nat) : Nat := if digits.isEmpty then usual else digitsValue digits
  match cs.drop digits.length with
  | '>' :: '>' :: rest => some (token (fd 1) .append, rest)
  | '>' :: '&' :: rest => some (token (fd 1) .duplicate, rest)
  | '>' :: '|' :: rest => some (token (fd 1) .write, rest)
  | '>' :: rest => some (token (fd 1) .write, rest)
  | '<' :: '&' :: rest => some (token (fd 0) .duplicate, rest)
  | '<' :: rest => some (token (fd 0) .read, rest)
  | _ => none

def operator? (line : Nat) : List Char → Option (Token × List Char)
  | '&' :: '&' :: rest => some (.operator line "&&", rest)
  | '|' :: '|' :: rest => some (.operator line "||", rest)
  | ';' :: ';' :: rest => some (.operator line ";;", rest)
  | ';' :: rest => some (.operator line ";", rest)
  | '&' :: rest => some (.operator line "&", rest)
  | '|' :: rest => some (.operator line "|", rest)
  | '(' :: rest => some (.operator line "(", rest)
  | ')' :: rest => some (.operator line ")", rest)
  | '\n' :: rest => some (.newline line, rest)
  | _ => none

def lineBreaks (cs : List Char) : Nat := cs.count '\n'

/-- The tokens of a script of `last` lines, up to where a quote or an expansion is left
open. -/
def tokens (last : Nat) : Nat → List Char → List Token
  | 0, _ => []
  | fuel + 1, cs =>
    let line := last - lineBreaks cs
    match cs with
    | [] => []
    | ' ' :: rest => tokens last fuel rest
    | '\t' :: rest => tokens last fuel rest
    | '\\' :: '\n' :: rest => tokens last fuel rest
    | '#' :: rest => tokens last fuel (rest.dropWhile (· != '\n'))
    | _ =>
      match redirection? line cs with
      | some (t, rest) => t :: tokens last fuel rest
      | none =>
        match operator? line cs with
        | some (t, rest) => t :: tokens last fuel rest
        | none =>
          match readWord false (cs.length + 1) [] cs with
          | none => [.leftOpen last]
          | some (w, rest) => .word line w :: tokens last fuel rest

end Shell
end FileSweep
