import FileSweep.Text.Blank

/-! Splitting a command line into words. Blanks separate words outside double quotes;
quotes are dropped, and a doubled quote within quotes stands for one. -/
namespace FileSweep
namespace Words

/-- Splits the rest of a line. `quoted` tells that a quote is open, and `word` is the word
begun, which a pair of quotes begins even when nothing stands between them. -/
def splitFrom : Bool → Option (List Char) → List Char → List (List Char)
  | _, none, [] => []
  | _, some word, [] => [word]
  | true, word, '"' :: '"' :: cs => splitFrom true (some (word.getD [] ++ ['"'])) cs
  | quoted, word, c :: cs =>
    if c = '"' then splitFrom (!quoted) (some (word.getD [])) cs
    else if Text.isBlank c && !quoted then
      match word with
      | none => splitFrom quoted none cs
      | some w => w :: splitFrom quoted none cs
    else splitFrom quoted (some (word.getD [] ++ [c])) cs

def splitChars (cs : List Char) : List (List Char) := splitFrom false none cs

def split (line : String) : List String := (splitChars line.toList).map String.ofList

end Words
end FileSweep
