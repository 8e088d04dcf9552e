/-! Filling paragraphs: words are put on a line as long as they fit, and a word that is
wider than the line stands alone. -/
namespace FileSweep
namespace Text

/-- The space characters at which a paragraph may be broken. -/
def isBreak (c : Char) : Bool := c == ' ' || (9 ≤ c.toNat && c.toNat ≤ 13)

def breakWords : List Char → List Char → List (List Char)
  | word, [] => if word.isEmpty then [] else [word]
  | word, c :: cs =>
    if isBreak c then
      if word.isEmpty then breakWords [] cs else word :: breakWords [] cs
    else breakWords (word ++ [c]) cs

def fillLines (width : Nat) : List Char → List (List Char) → List (List Char)
  | line, [] => if line.isEmpty then [] else [line]
  | line, word :: words =>
    if line.isEmpty then fillLines width word words
    else if line.length + 1 + word.length ≤ width then
      fillLines width (line ++ ' ' :: word) words
    else line :: fillLines width word words

/-- The lines of a paragraph filled to a width. -/
def wrap (width : Nat) (s : String) : List String :=
  (fillLines width [] (breakWords [] s.toList)).map String.ofList

end Text
end FileSweep
