import FileSweep.Json.Value
import FileSweep.Text.Digits
import FileSweep.Text.Hex

/-! Reading JSON text. A fault names what was expected and where, as a line, a column and
a count of characters. Beyond the standard the words `NaN`, `Infinity` and `-Infinity`
are numbers; control characters inside strings are refused. -/
namespace FileSweep
namespace Json

inductive Expectation where
  | value
  | propertyName
  | colon
  | comma
  | endOfText
  | closingQuote
  | noControlCharacter
  | escape
  | unicodeEscape
  | noByteOrderMark
  deriving DecidableEq, Repr

def Expectation.message : Expectation → String
  | value => "Expecting value"
  | propertyName => "Expecting property name enclosed in double quotes"
  | colon => "Expecting ':' delimiter"
  | comma => "Expecting ',' delimiter"
  | endOfText => "Extra data"
  | closingQuote => "Unterminated string starting at"
  | noControlCharacter => "Invalid control character at"
  | escape => "Invalid \\escape"
  | unicodeEscape => "Invalid \\uXXXX escape"
  | noByteOrderMark => "Unexpected UTF-8 BOM (decode using utf-8-sig)"

/-- A fault inside a text. A place is told by the number of characters that are left. -/
inductive Fault where
  | expected (what : Expectation) (left : Nat)
  /-- An integer of more digits than are read. -/
  | tooManyDigits (count : Nat)
  deriving DecidableEq, Repr

abbrev Reads (α : Type) := Except Fault (α × List Char)

def isSpace (c : Char) : Bool := c == ' ' || c == '\t' || c == '\n' || c == '\r'

def skipSpace (cs : List Char) : List Char := cs.dropWhile isSpace

def hexFour? : List Char → Option Nat
  | a :: b :: c :: d :: _ => do
    let a ← Text.hexValue? a
    let b ← Text.hexValue? b
    let c ← Text.hexValue? c
    let d ← Text.hexValue? d
    return ((a * 16 + b) * 16 + c) * 16 + d
  | _ => none

def isHighSurrogate (n : Nat) : Bool := 0xD800 ≤ n && n ≤ 0xDBFF

def isLowSurrogate (n : Nat) : Bool := 0xDC00 ≤ n && n ≤ 0xDFFF

/-- The character of a code unit; a surrogate that stands alone has none of its own. -/
def charOfUnit (n : Nat) : Char :=
  if isHighSurrogate n || isLowSurrogate n then '\uFFFD' else Char.ofNat n

/-- The character that an escape with four digits stands for, and the number of
characters it takes after the letter. Two surrogates in a row make one character. -/
def unicodeEscape (cs : List Char) : Except Fault (Char × Nat) :=
  if cs.length ≤ 4 then .error (.expected .unicodeEscape cs.length)
  else
    match hexFour? cs with
    | none => .error (.expected .unicodeEscape (cs.length + 1))
    | some high =>
      let rest := cs.drop 4
      match isHighSurrogate high && 6 < rest.length, rest with
      | true, '\\' :: 'u' :: digits =>
        match hexFour? digits with
        | none => .error (.expected .unicodeEscape (digits.length + 1))
        | some low =>
          if isLowSurrogate low then
            .ok (Char.ofNat (0x10000 + (high - 0xD800) * 0x400 + (low - 0xDC00)), 10)
          else .ok (charOfUnit high, 4)
      | _, _ => .ok (charOfUnit high, 4)

/-- The character of an escape, given what follows the backslash, and the number of
characters it takes. -/
def readEscape (start : Nat) : List Char → Except Fault (Char × Nat)
  | [] => .error (.expected .closingQuote start)
  | c :: cs =>
    match c with
    | '"' => .ok ('"', 1)
    | '\\' => .ok ('\\', 1)
    | '/' => .ok ('/', 1)
    | 'b' => .ok ('\x08', 1)
    | 'f' => .ok ('\x0c', 1)
    | 'n' => .ok ('\n', 1)
    | 'r' => .ok ('\r', 1)
    | 't' => .ok ('\t', 1)
    | 'u' => (unicodeEscape cs).map fun (c, used) => (c, used + 1)
    | _ => .error (.expected .escape (cs.length + 2))

/-- Reads the rest of a string of which the first `skip` characters are already used.
`start` is the place of the opening quote. -/
def readStringFrom (start : Nat) : Nat → List Char → Reads (List Char)
  | _, [] => .error (.expected .closingQuote start)
  | skip + 1, _ :: cs => readStringFrom start skip cs
  | 0, c :: cs =>
    if c = '"' then .ok ([], cs)
    else if c = '\\' then
      match readEscape start cs with
      | .error e => .error e
      | .ok (d, used) =>
        (readStringFrom start used cs).map fun (text, rest) => (d :: text, rest)
    else if c.toNat < 0x20 then .error (.expected .noControlCharacter (cs.length + 1))
    else (readStringFrom start 0 cs).map fun (text, rest) => (c :: text, rest)

def readString (cs : List Char) : Reads String :=
  (readStringFrom (cs.length + 1) 0 cs).map fun (text, rest) => (String.ofList text, rest)

def isDigit (c : Char) : Bool := '0' ≤ c && c ≤ '9'

def digitsValue (cs : List Char) : Nat :=
  cs.foldl (fun n c => n * 10 + (c.toNat - 48)) 0

def fraction? : List Char → Option (List Char × List Char)
  | '.' :: cs =>
    let digits := cs.takeWhile isDigit
    if digits.isEmpty then none else some (digits, cs.dropWhile isDigit)
  | _ => none

def exponentDigits? (negative : Bool) (cs : List Char) : Option (Int × List Char) :=
  let digits := cs.takeWhile isDigit
  if digits.isEmpty then none
  else
    let n : Int := digitsValue digits
    some (if negative then -n else n, cs.dropWhile isDigit)

def exponent? : List Char → Option (Int × List Char)
  | c :: cs =>
    if c = 'e' ∨ c = 'E' then
      match cs with
      | '-' :: rest => exponentDigits? true rest
      | '+' :: rest => exponentDigits? false rest
      | _ => exponentDigits? false cs
    else none
  | [] => none

/-- The digits before the point: a zero, or digits that begin with another. -/
def integerDigits? : List Char → Option (List Char × List Char)
  | [] => none
  | c :: cs =>
    if c = '0' then some ([c], cs)
    else if isDigit c then some (c :: cs.takeWhile isDigit, cs.dropWhile isDigit)
    else none

/-- Reads a number; `left` is the place of its first character. -/
def readNumber (left : Nat) (negative : Bool) (cs : List Char) : Reads Value :=
  match integerDigits? cs with
  | none => .error (.expected .value left)
  | some (whole, rest) =>
    let (frac, rest) := (fraction? rest).elim (none, rest) fun (ds, r) => (some ds, r)
    let (exp, rest) := (exponent? rest).elim (none, rest) fun (e, r) => (some e, r)
    match frac, exp with
    | none, none =>
      if whole.length ≤ Text.digitLimit then
        let n : Int := digitsValue whole
        .ok (.int (if negative then -n else n), rest)
      else .error (.tooManyDigits whole.length)
    | _, _ =>
      let digits := frac.getD []
      .ok (.real (.decimal negative (digitsValue (whole ++ digits))
        (exp.getD 0 - digits.length)), rest)

def afterWord? : List Char → List Char → Option (List Char)
  | [], cs => some cs
  | _ :: _, [] => none
  | w :: ws, c :: cs => if w = c then afterWord? ws cs else none

def constants : List (String × Value) :=
  [("null", .null), ("true", .bool true), ("false", .bool false), ("NaN", .real .nan),
    ("Infinity", .real (.infinity false)), ("-Infinity", .real (.infinity true))]

def constant? (cs : List Char) : Option (Value × List Char) :=
  constants.findSome? fun (word, value) =>
    (afterWord? word.toList cs).map fun rest => (value, rest)

def readAtom (cs : List Char) : Reads Value :=
  match constant? cs with
  | some found => .ok found
  | none =>
    match cs with
    | '-' :: rest => readNumber cs.length true rest
    | _ => readNumber cs.length false cs

mutual

/-- Reads a value. The fuel bounds the number of nested and following values. -/
def readValue : Nat → List Char → Reads Value
  | 0, cs => .error (.expected .value cs.length)
  | fuel + 1, cs =>
    match cs with
    | [] => .error (.expected .value 0)
    | '"' :: rest => (readString rest).map fun (s, rest) => (.str s, rest)
    | '[' :: rest =>
      match skipSpace rest with
      | ']' :: rest => .ok (.arr [], rest)
      | rest => (readItems fuel rest).map fun (items, rest) => (.arr items, rest)
    | '\x7b' :: rest =>
      match skipSpace rest with
      | '\x7d' :: rest => .ok (.obj [], rest)
      | rest => (readMembers fuel [] rest).map fun (members, rest) => (.obj members, rest)
    | _ => readAtom cs

def readItems : Nat → List Char → Reads (List Value)
  | 0, cs => .error (.expected .value cs.length)
  | fuel + 1, cs =>
    match readValue fuel cs with
    | .error e => .error e
    | .ok (item, rest) =>
      match skipSpace rest with
      | ']' :: rest => .ok ([item], rest)
      | ',' :: rest =>
        (readItems fuel (skipSpace rest)).map fun (items, rest) => (item :: items, rest)
      | rest => .error (.expected .comma rest.length)

/-- Reads the members of an object and its closing brace, given those before. -/
def readMembers : Nat → List (String × Value) → List Char → Reads (List (String × Value))
  | 0, _, cs => .error (.expected .propertyName cs.length)
  | fuel + 1, before, cs =>
    match cs with
    | '"' :: rest =>
      match readString rest with
      | .error e => .error e
      | .ok (name, rest) =>
        match skipSpace rest with
        | ':' :: rest =>
          match readValue fuel (skipSpace rest) with
          | .error e => .error e
          | .ok (value, rest) =>
            let members := insertMember before name value
            match skipSpace rest with
            | '\x7d' :: rest => .ok (members, rest)
            | ',' :: rest => readMembers fuel members (skipSpace rest)
            | rest => .error (.expected .comma rest.length)
        | rest => .error (.expected .colon rest.length)
    | _ => .error (.expected .propertyName cs.length)

end

def parseChars (cs : List Char) : Except Fault Value :=
  match cs with
  | '\uFEFF' :: _ => .error (.expected .noByteOrderMark cs.length)
  | _ =>
    match readValue (2 * cs.length + 2) (skipSpace cs) with
    | .error e => .error e
    | .ok (value, rest) =>
      match skipSpace rest with
      | [] => .ok value
      | rest => .error (.expected .endOfText rest.length)

structure ParseError where
  fault : Fault
  text : List Char
  deriving Repr

/-- The line and the column of a place, both from one. -/
def lineColumn (before : List Char) : Nat × Nat :=
  (before.count '\n' + 1, (before.reverse.takeWhile (· != '\n')).length + 1)

def ParseError.message (e : ParseError) : String :=
  match e.fault with
  | .expected what left =>
    let place := e.text.length - left
    let (line, column) := lineColumn (e.text.take place)
    what.message ++ ": line " ++ toString line ++ " column " ++ toString column ++
      " (char " ++ toString place ++ ")"
  | .tooManyDigits count =>
    "Exceeds the limit (" ++ toString Text.digitLimit ++
      " digits) for integer string conversion: value has " ++ toString count ++
      " digits; use sys.set_int_max_str_digits() to increase the limit"

def parse (s : String) : Except ParseError Value :=
  match parseChars s.toList with
  | .ok value => .ok value
  | .error fault => .error ⟨fault, s.toList⟩

end Json
end FileSweep
