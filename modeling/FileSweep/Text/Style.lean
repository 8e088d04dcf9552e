import FileSweep.Text.Digits
import FileSweep.Text.Numeral

/-! Styles: how a text or a number is written into a field. A style has, in this order and
each only if wanted: a fill character and an alignment, a sign, `z`, `#`, `0`, a width, a
separator of digit groups, a precision, and a letter for the form. -/
namespace FileSweep
namespace Text

/-- Where a value stands in a field that is wider: `inside` has the filling between the
sign and the digits of a number. -/
inductive Align where
  | left
  | right
  | center
  | inside
  deriving DecidableEq, Repr

inductive Sign where
  | nothing
  | plus
  | blank
  deriving DecidableEq, Repr

/-- The forms of a value; `capital` forms have their letters in upper case. -/
inductive Form where
  | text
  | character
  | decimal
  | number
  | binary
  | octal
  | hexadecimal (capital : Bool)
  | exponent (capital : Bool)
  | fixed
  | general (capital : Bool)
  | percent
  deriving DecidableEq, Repr

structure Style where
  fill : Char := ' '
  align : Align
  sign : Option Sign := none
  /-- Whether zero loses its sign, which only doubles could have. -/
  unsignedZero : Bool := false
  /-- Whether the base is marked, and the point kept. -/
  alternate : Bool := false
  width : Nat := 0
  separator : Option Char := none
  precision : Option Nat := none
  form : Form
  deriving DecidableEq, Repr

inductive StyleError where
  /-- No such style, or none for this kind of value. -/
  | unfit
  /-- A number is beyond all doubles. -/
  | beyondDoubles
  /-- A number is beyond the machine's words, so that it is no character. -/
  | beyondWords
  /-- A number is beyond the characters. -/
  | beyondCharacters
  deriving DecidableEq, Repr

def Align.ofChar? : Char → Option Align
  | '<' => some .left
  | '>' => some .right
  | '^' => some .center
  | '=' => some .inside
  | _ => none

def Sign.ofChar? : Char → Option Sign
  | '-' => some .nothing
  | '+' => some .plus
  | ' ' => some .blank
  | _ => none

def Form.ofChar? : Char → Option Form
  | 's' => some .text
  | 'c' => some .character
  | 'd' => some .decimal
  | 'n' => some .number
  | 'b' => some .binary
  | 'o' => some .octal
  | 'x' => some (.hexadecimal false)
  | 'X' => some (.hexadecimal true)
  | 'e' => some (.exponent false)
  | 'E' => some (.exponent true)
  | 'f' => some .fixed
  | 'F' => some .fixed
  | 'g' => some (.general false)
  | 'G' => some (.general true)
  | '%' => some .percent
  | _ => none

/-- How many digits a group has: three, but four in the bases that are powers of two. -/
def Form.groupSize : Form → Nat
  | binary => 4
  | octal => 4
  | hexadecimal _ => 4
  | _ => 3

/-- Whether the digits of a form may be grouped by a separator. A comma is for tens. -/
def Form.canGroup (separator : Char) : Form → Bool
  | text => false
  | character => false
  | number => false
  | binary => separator = '_'
  | octal => separator = '_'
  | hexadecimal _ => separator = '_'
  | _ => true

namespace Style

def sizeLimit : Nat := 9223372036854775807

def takeNumber (cs : List Char) : Option Nat × List Char :=
  let digits := (cs.takeWhile fun c => (digitValue? c).isSome).filterMap digitValue?
  if digits.isEmpty then (none, cs)
  else (some (digits.foldl (fun n d => n * 10 + d) 0), cs.drop digits.length)

def takeChar (wanted : Char) : List Char → Bool × List Char
  | [] => (false, [])
  | c :: cs => if c = wanted then (true, cs) else (false, c :: cs)

/-- The fill character and the alignment in front of a text, and what follows them. -/
def takeAlign : List Char → Option Char × Option Align × List Char
  | [] => (none, none, [])
  | [c] => if (Align.ofChar? c).isSome then (none, Align.ofChar? c, []) else (none, none, [c])
  | c :: d :: cs =>
    if (Align.ofChar? d).isSome then (some c, Align.ofChar? d, cs)
    else if (Align.ofChar? c).isSome then (none, Align.ofChar? c, d :: cs)
    else (none, none, c :: d :: cs)

def takeSign : List Char → Option Sign × List Char
  | [] => (none, [])
  | c :: cs => if (Sign.ofChar? c).isSome then (Sign.ofChar? c, cs) else (none, c :: cs)

/-- The zero in front of a width. It is the fill character, unless one is given, and puts
the filling of a number inside, unless an alignment is given. -/
def takeZero (fill : Option Char) (align : Option Align) (default : Align)
    (cs : List Char) : Char × Align × List Char :=
  match fill, takeChar '0' cs with
  | none, (true, cs) =>
    ('0', align.getD (if default = .right then .inside else default), cs)
  | _, _ => (fill.getD ' ', align.getD default, cs)

/-- The separator of digit groups. There is one at most. -/
def takeSeparator : List Char → Option (Option Char × List Char)
  | ',' :: '_' :: _ => none
  | '_' :: ',' :: _ => none
  | ',' :: cs => some (some ',', cs)
  | '_' :: cs => some (some '_', cs)
  | cs => some (none, cs)

/-- The precision, which its point must not lack. -/
def takePrecision : List Char → Option (Option Nat × List Char)
  | '.' :: cs =>
    match takeNumber cs with
    | (some n, cs) => if n ≤ sizeLimit then some (some n, cs) else none
    | (none, _) => none
  | cs => some (none, cs)

def readForm? (default : Form) : List Char → Option Form
  | [] => some default
  | [c] => Form.ofChar? c
  | _ => none

/-- Reads a style, with the alignment and the form that it has if it gives none. -/
def parse? (align : Align) (form : Form) (cs : List Char) : Option Style := do
  let (fill, given, cs) := takeAlign cs
  let (sign, cs) := takeSign cs
  let (unsignedZero, cs) := takeChar 'z' cs
  let (alternate, cs) := takeChar '#' cs
  let (fill, align, cs) := takeZero fill given align cs
  let (width, cs) := takeNumber cs
  if width.any fun n => sizeLimit < n then none
  let (separator, cs) ← takeSeparator cs
  let (precision, cs) ← takePrecision cs
  let form ← readForm? form cs
  if separator.all fun c => form.canGroup c then
    some
      { fill, align, sign, unsignedZero, alternate, separator, precision, form
        width := width.getD 0 }
  else none

/-- Surrounds the body of a field with its filling; `sign` stands in front of the body. -/
def place (st : Style) (sign body : List Char) : List Char :=
  let room := st.width - (sign.length + body.length)
  let filling (n : Nat) : List Char := List.replicate n st.fill
  match st.align with
  | .left => sign ++ body ++ filling room
  | .right => filling room ++ sign ++ body
  | .center => filling (room / 2) ++ sign ++ body ++ filling (room - room / 2)
  | .inside => sign ++ filling room ++ body

def text? (st : Style) (s : List Char) : Option (List Char) :=
  if st.sign.isSome || st.unsignedZero || st.alternate || st.align = .inside ||
    st.form != .text then none
  else some (st.place [] (match st.precision with
    | some n => s.take n
    | none => s))

/-- Puts a separator before every group of digits but the first. The digits are given, and
the result is, from the last one on. -/
def group (size : Nat) (separator : Char) : Nat → List Char → List Char
  | _, [] => []
  | room, c :: cs =>
    if room = 0 then separator :: c :: group size separator (size - 1) cs
    else c :: group size separator (room - 1) cs

/-- The number of digits that fill a width together with their separators. One more may be
needed than fits, since no separator stands in front. -/
def digitsFor (size width : Nat) : Nat := width - (width - 1) / (size + 1)

/-- The digits of a number in their groups, with zeros in front up to a width. -/
def grouped (st : Style) (width : Nat) (ds : List Char) : List Char :=
  if ds.isEmpty then []
  else
    let size := st.form.groupSize
    match st.separator with
    | none => List.replicate (width - ds.length) '0' ++ ds
    | some c =>
      (group size c size
        (List.replicate (digitsFor size width - ds.length) '0' ++ ds).reverse).reverse

def signText (st : Style) (negative : Bool) : List Char :=
  if negative then ['-']
  else
    match st.sign with
    | some .plus => ['+']
    | some .blank => [' ']
    | _ => []

/-- Writes a number. Zeros that fill a field between sign and digits are digits too, and
are grouped like them. -/
def numeral (st : Style) (n : Numeral) : List Char :=
  let sign := st.signText n.negative ++ n.mark
  let width := if st.fill = '0' ∧ st.align = .inside then
      st.width - (sign.length + n.tail.length)
    else 0
  st.place sign (st.grouped width n.digits ++ n.tail)

def mark (st : Style) (letter : Char) : List Char := if st.alternate then ['0', letter] else []

def character (n : Int) : Except StyleError Numeral :=
  if n < -9223372036854775808 ∨ 9223372036854775807 < n then .error .beyondWords
  else if n < 0 ∨ 0x10ffff < n then .error .beyondCharacters
  else .ok { tail := [Char.ofNat n.toNat] }

def defaultPrecision : Nat := 6

def precisionLimit : Nat := 2147483647

/-- An integer as its nearest double; `write` gets the precision and the double's size. -/
def double (st : Style) (n : Int) (write : Nat → Nat → Numeral) : Except StyleError Numeral :=
  match nearestDouble? n.natAbs with
  | none => .error .beyondDoubles
  | some m =>
    let precision := st.precision.getD defaultPrecision
    if precisionLimit < precision then .error .unfit
    else .ok { write precision m with negative := n < 0 }

/-- A double as hundredths. -/
def percent (point : Bool) (precision n : Nat) : Numeral :=
  match nearestDouble? (n * 100) with
  | some m => { Numeral.fixed point precision m with
      tail := (Numeral.fixed point precision m).tail ++ ['%'] }
  | none => { tail := "inf%".toList }

def parts (st : Style) (n : Int) : Except StyleError Numeral :=
  let whole := st.precision.isNone && !st.unsignedZero
  match st.form with
  | .text => .error .unfit
  | .character =>
    if whole && st.sign.isNone && !st.alternate then character n else .error .unfit
  | .decimal => if whole then .ok (.ofInt 10 [] n) else .error .unfit
  | .number => if whole then .ok (.ofInt 10 [] n) else .error .unfit
  | .binary => if whole then .ok (.ofInt 2 (st.mark 'b') n) else .error .unfit
  | .octal => if whole then .ok (.ofInt 8 (st.mark 'o') n) else .error .unfit
  | .hexadecimal false => if whole then .ok (.ofInt 16 (st.mark 'x') n) else .error .unfit
  | .hexadecimal true =>
    if whole then
      let m := Numeral.ofInt 16 (st.mark 'X') n
      .ok { m with digits := m.digits.map Char.toUpper }
    else .error .unfit
  | .exponent capital =>
    st.double n fun precision m =>
      let (ds, power) := leadingDigits (precision + 1) m
      .scientific st.alternate (if capital then 'E' else 'e') ds power
  | .fixed => st.double n (.fixed st.alternate)
  | .general capital =>
    st.double n fun precision m =>
      .general st.alternate (if capital then 'E' else 'e') (max precision 1) m
  | .percent => st.double n (percent st.alternate)

def integer (st : Style) (n : Int) : Except StyleError (List Char) :=
  (st.parts n).map st.numeral

end Style
end Text
end FileSweep
