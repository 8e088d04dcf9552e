import FileSweep.Text.Blank

/-! Decimal digits of every script, and integers written with them. A number may be
surrounded by blanks, carry a sign, and hold single underscores between its digits. -/
namespace FileSweep
namespace Text

/-- The zero of each run of ten decimal digits. -/
def digitZeros : List Nat :=
  [
    0x30, 0x660, 0x6f0, 0x7c0, 0x966, 0x9e6, 0xa66, 0xae6,
    0xb66, 0xbe6, 0xc66, 0xce6, 0xd66, 0xde6, 0xe50, 0xed0,
    0xf20, 0x1040, 0x1090, 0x17e0, 0x1810, 0x1946, 0x19d0, 0x1a80,
    0x1a90, 0x1b50, 0x1bb0, 0x1c40, 0x1c50, 0xa620, 0xa8d0, 0xa900,
    0xa9d0, 0xa9f0, 0xaa50, 0xabf0, 0xff10, 0x104a0, 0x10d30, 0x11066,
    0x110f0, 0x11136, 0x111d0, 0x112f0, 0x11450, 0x114d0, 0x11650, 0x116c0,
    0x11730, 0x118e0, 0x11950, 0x11c50, 0x11d50, 0x11da0, 0x16a60, 0x16ac0,
    0x16b50, 0x1d7ce, 0x1d7d8, 0x1d7e2, 0x1d7ec, 0x1d7f6, 0x1e140, 0x1e2f0,
    0x1e950, 0x1fbf0]

def digitValue? (c : Char) : Option Nat :=
  (digitZeros.find? fun z => z ≤ c.toNat && c.toNat ≤ z + 9).map (c.toNat - ·)

/-- The most digits that a written integer may have, leading zeros included. -/
def digitLimit : Nat := 4300

/-- Digits with single underscores between them: their count and their value.
`acc` holds what was read so far, and `digitNeeded` tells that an underscore, or
nothing, stands just before. -/
def readDigits : List Char → Bool → Nat × Nat → Option (Nat × Nat)
  | [], digitNeeded, acc => if digitNeeded then none else some acc
  | c :: cs, digitNeeded, (count, value) =>
    if c = '_' then
      if digitNeeded then none else readDigits cs true (count, value)
    else
      match digitValue? c with
      | some d => readDigits cs false (count + 1, value * 10 + d)
      | none => none

def readNat? (cs : List Char) : Option Nat :=
  match readDigits cs true (0, 0) with
  | some (count, value) => if count ≤ digitLimit then some value else none
  | none => none

/-- The blanks that may surround a number: all but the four separators of data. -/
def isNumberBlank (c : Char) : Bool := isBlank c && !(28 ≤ c.toNat && c.toNat ≤ 31)

def trimNumber (cs : List Char) : List Char :=
  ((cs.dropWhile isNumberBlank).reverse.dropWhile isNumberBlank).reverse

/-- An integer in text: blanks around it, an optional sign, digits. -/
def readInt? (s : String) : Option Int :=
  match trimNumber s.toList with
  | '-' :: cs => (readNat? cs).map fun n => -(n : Int)
  | '+' :: cs => (readNat? cs).map Int.ofNat
  | cs => (readNat? cs).map Int.ofNat

end Text
end FileSweep
