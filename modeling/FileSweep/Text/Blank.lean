/-! Blank characters. The class is the Unicode one: the six ASCII spaces, the four
separators U+001C to U+001F, U+0085, and the space, line and paragraph separators. -/
namespace FileSweep
namespace Text

/-- The characters that separate words and that are trimmed from both ends of a setting. -/
def isBlank (c : Char) : Bool :=
  let n := c.toNat
  (9 ≤ n && n ≤ 13) || (28 ≤ n && n ≤ 32) || n == 0x85 || n == 0xA0 || n == 0x1680 ||
    (0x2000 ≤ n && n ≤ 0x200A) || n == 0x2028 || n == 0x2029 || n == 0x202F ||
    n == 0x205F || n == 0x3000

def trimEndChars (cs : List Char) : List Char := (cs.reverse.dropWhile isBlank).reverse

def trimChars (cs : List Char) : List Char := trimEndChars (cs.dropWhile isBlank)

def trimEnd (s : String) : String := String.ofList (trimEndChars s.toList)

def trim (s : String) : String := String.ofList (trimChars s.toList)

/-- No text at all, or nothing but blanks. -/
def isBlankText (s : String) : Bool := s.toList.all isBlank

@[simp] theorem trimEndChars_nil : trimEndChars [] = [] := rfl
@[simp] theorem trimChars_nil : trimChars [] = [] := rfl

end Text
end FileSweep
