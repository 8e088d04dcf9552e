import FileSweep.Shell.Lexer
import FileSweep.Text.Hex

/-! Integer expressions of a script. An operand is a number, a variable or an expression
in parentheses; an operator of a higher rank binds its operands first. -/
namespace FileSweep
namespace Shell

def ofFlag (b : Bool) : Int := if b then 1 else 0

/-- A bitwise operation on numbers that are not negative. -/
def bitwise (f : Nat → Nat → Nat) (a b : Int) : Option Int :=
  if a < 0 ∨ b < 0 then none else some (f a.toNat b.toNat)

/-- The operators, each with its rank and what it computes. Division by zero has no value. -/
def operators : List (String × Nat × (Int → Int → Option Int)) :=
  [("||", 1, fun a b => some (ofFlag (a != 0 || b != 0))),
    ("&&", 2, fun a b => some (ofFlag (a != 0 && b != 0))),
    ("==", 6, fun a b => some (ofFlag (a == b))),
    ("!=", 6, fun a b => some (ofFlag (a != b))),
    ("<=", 7, fun a b => some (ofFlag (a ≤ b))),
    (">=", 7, fun a b => some (ofFlag (b ≤ a))),
    ("<<", 8, bitwise (· <<< ·)),
    (">>", 8, bitwise (· >>> ·)),
    ("|", 3, bitwise (· ||| ·)),
    ("^", 4, bitwise (· ^^^ ·)),
    ("&", 5, bitwise (· &&& ·)),
    ("<", 7, fun a b => some (ofFlag (a < b))),
    (">", 7, fun a b => some (ofFlag (b < a))),
    ("+", 9, fun a b => some (a + b)),
    ("-", 9, fun a b => some (a - b)),
    ("*", 10, fun a b => some (a * b)),
    ("/", 10, fun a b => if b = 0 then none else some (a.tdiv b)),
    ("%", 10, fun a b => if b = 0 then none else some (a.tmod b))]

def skipBlanks (cs : List Char) : List Char := cs.dropWhile Char.isWhitespace

def isOctal (c : Char) : Bool := '0' ≤ c && c ≤ '7'

def octalValue (cs : List Char) : Nat := cs.foldl (fun n c => n * 8 + (c.toNat - 48)) 0

/-- A number without a sign: hexadecimal after `0x`, octal after `0`, decimal otherwise. -/
def unsigned? (cs : List Char) : Option Nat :=
  match cs with
  | [] => none
  | '0' :: 'x' :: ds =>
    if ds.isEmpty then none
    else ds.foldl (fun n c => do return (← n) * 16 + (← Text.hexValue? c)) (some 0)
  | '0' :: ds => if ds.all isOctal then some (octalValue ds) else none
  | ds => if ds.all Char.isDigit then some (digitsValue ds) else none

def integer? (cs : List Char) : Option Int :=
  match cs with
  | '-' :: ds => (unsigned? ds).map fun n => -(n : Int)
  | '+' :: ds => (unsigned? ds).map Int.ofNat
  | ds => (unsigned? ds).map Int.ofNat

def operatorAt? (cs : List Char) : Option ((Nat × (Int → Int → Option Int)) × List Char) :=
  operators.findSome? fun (symbol, rank, f) =>
    if symbol.toList.isPrefixOf cs then some ((rank, f), cs.drop symbol.length) else none

mutual

def readOperand (value : List Char → List Char) : Nat → List Char → Option (Int × List Char)
  | 0, _ => none
  | fuel + 1, cs =>
    match skipBlanks cs with
    | '(' :: rest =>
      match readExpr value fuel 0 rest with
      | some (n, rest) =>
        match skipBlanks rest with
        | ')' :: rest => some (n, rest)
        | _ => none
      | none => none
    | '-' :: rest => (readOperand value fuel rest).map fun (n, rest) => (-n, rest)
    | '+' :: rest => readOperand value fuel rest
    | '!' :: rest => (readOperand value fuel rest).map fun (n, rest) => (ofFlag (n == 0), rest)
    | '~' :: rest => (readOperand value fuel rest).map fun (n, rest) => (-n - 1, rest)
    | cs =>
      let word := cs.takeWhile isNameChar
      match word with
      | [] => none
      | c :: _ =>
        let text := if c.isDigit then word else value word
        let known := if text.isEmpty then some 0 else integer? text
        known.map fun n => (n, cs.drop word.length)

/-- Reads an expression of operators of at least the given rank. -/
def readExpr (value : List Char → List Char) : Nat → Nat → List Char →
    Option (Int × List Char)
  | 0, _, _ => none
  | fuel + 1, rank, cs =>
    match readOperand value fuel cs with
    | none => none
    | some (n, rest) => readExprRest value fuel rank n rest

def readExprRest (value : List Char → List Char) : Nat → Nat → Int → List Char →
    Option (Int × List Char)
  | 0, _, _, _ => none
  | fuel + 1, rank, n, cs =>
    let cs := skipBlanks cs
    match operatorAt? cs with
    | none => some (n, cs)
    | some ((r, f), rest) =>
      if r < rank then some (n, cs)
      else
        match readExpr value fuel (r + 1) rest with
        | none => none
        | some (m, rest) =>
          match f n m with
          | none => none
          | some k => readExprRest value fuel rank k rest

end

def evaluate (value : List Char → List Char) (cs : List Char) : Option Int :=
  match readExpr value (4 * cs.length + 4) 0 cs with
  | some (n, rest) => if (skipBlanks rest).isEmpty then some n else none
  | none => if (skipBlanks cs).isEmpty then some 0 else none

/-- The variable that an expression sets, the operator applied to its old value if there
is one, and the text of the new value. -/
def setting? (cs : List Char) : Option (List Char × List Char × List Char) :=
  let cs := skipBlanks cs
  let name := cs.takeWhile isNameChar
  let rest := skipBlanks (cs.drop name.length)
  match name with
  | [] => none
  | c :: _ =>
    if !isNameStart c then none
    else
      match rest with
      | '=' :: '=' :: _ => none
      | '=' :: text => some (name, [], text)
      | op :: '=' :: text => if "+-*/%".toList.contains op then some (name, [op], text) else none
      | _ => none

/-- The value of an expression, given the values of variables, and the variable it sets. -/
def arithmetic (value : List Char → List Char) (cs : List Char) :
    Option (Int × Option (List Char)) :=
  match setting? cs with
  | none => (evaluate value cs).map fun n => (n, none)
  | some (name, op, text) =>
    let whole := if op.isEmpty then text else name ++ op ++ '(' :: text ++ [')']
    (evaluate value whole).map fun n => (n, some name)

end Shell
end FileSweep
