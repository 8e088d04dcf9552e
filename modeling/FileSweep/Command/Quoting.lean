import FileSweep.Marker
import FileSweep.Text.Blank

/-! Writing words so that they are read back as they are: quotes around a word that would
be split, and a caret before a character that would be an operator. -/
namespace FileSweep
namespace Quoting

def isControl (c : Char) : Bool := c == '>' || c == '<' || c == '|' || c == '&'

/-- Whether a blank stands outside the quoted runs; `inRun` tells that the text begins
inside one. -/
def blankOutside : Bool → List Char → Bool
  | _, [] => false
  | inRun, c :: cs =>
    if c = '"' then blankOutside (!inRun) cs
    else (!inRun && Text.isBlank c) || blankOutside inRun cs

/-- A word with a marker is quoted too, for the value may hold blanks. -/
def needsQuotes (cs : List Char) : Bool := Marker.occursChars cs || blankOutside false cs

def doubleQuotes (cs : List Char) : List Char :=
  cs.flatMap fun c => if c = '"' then ['"', '"'] else [c]

def quoteChars (cs : List Char) : List Char :=
  if needsQuotes cs then '"' :: doubleQuotes cs ++ ['"'] else cs

def escapeChars (cs : List Char) : List Char :=
  cs.flatMap fun c => if isControl c then ['^', c] else [c]

def quoteIfNeeded (s : String) : String := String.ofList (quoteChars s.toList)

def escapeControls (s : String) : String := String.ofList (escapeChars s.toList)

end Quoting
end FileSweep
