/-! Letter case, as far as it decides whether a text spells an ASCII word. Besides the
ASCII letters only a few characters have an ASCII letter as their other case. -/
namespace FileSweep
namespace Text

/-- The upper-case spelling of a character. A character whose upper case holds no
ASCII letter is left as it is, for it is part of no ASCII word either way. -/
def upperSpelling (c : Char) : List Char :=
  match c.toNat with
  | 0x131 => ['I']
  | 0x17F => ['S']
  | 0xDF => ['S', 'S']
  | 0xFB00 => ['F', 'F']
  | 0xFB01 => ['F', 'I']
  | 0xFB02 => ['F', 'L']
  | 0xFB03 => ['F', 'F', 'I']
  | 0xFB04 => ['F', 'F', 'L']
  | 0xFB05 => ['S', 'T']
  | 0xFB06 => ['S', 'T']
  | _ => [c.toUpper]

/-- The lower-case spelling of a character, with the same reservation. -/
def lowerSpelling (c : Char) : Char :=
  if c.toNat = 0x212A then 'k' else c.toLower

def upperWord (s : String) : String := String.ofList (s.toList.flatMap upperSpelling)

def lowerWord (s : String) : String := String.ofList (s.toList.map lowerSpelling)

/-- Whether the character is the given upper-case ASCII letter, or mark, in any case.
The letter I is also met by its two dotted and dotless relatives. -/
def matchesLetter (letter c : Char) : Bool :=
  c.toUpper == letter || (letter == 'I' && (c.toNat == 0x130 || c.toNat == 0x131))

@[simp] theorem matchesLetter_self (c : Char) (h : c.toUpper = c) : matchesLetter c c = true := by
  simp [matchesLetter, h]

end Text
end FileSweep
