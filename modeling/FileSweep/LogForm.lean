import FileSweep.Text.Digits
import FileSweep.Text.Letters
import FileSweep.Text.WordChars

/-! The forms of log lines. A form has to hold a field: a percent sign, a name in brackets, flags, a
width, a precision behind a point, and the letter of a conversion. -/
namespace FileSweep
namespace LogForm

def bare : String := "%(message)s"

def isFlag (c : Char) : Bool := ['#', '0', '+', ' ', '-'].contains c

/-- Whether the character asks for a conversion, in either case. The long s is an S as well. -/
def isConversion (c : Char) : Bool :=
  c.toNat == 0x17F ||
    ['D', 'I', 'O', 'U', 'X', 'E', 'F', 'G', 'C', 'R', 'S', 'A', '%'].any (Text.matchesLetter · c)

def isDigit (c : Char) : Bool := (Text.digitValue? c).isSome

/-- What stands behind a width or a precision, which is an asterisk or digits. -/
def dropAmount : List Char → List Char
  | '*' :: cs => cs
  | cs => cs.dropWhile isDigit

/-- What stands behind a point with a precision. A point with none is no part of a field. -/
def dropPrecision : List Char → List Char
  | '.' :: cs => if (dropAmount cs).length < cs.length then dropAmount cs else '.' :: cs
  | cs => cs

def beginsStyle (cs : List Char) : Bool :=
  (dropPrecision (dropAmount (cs.dropWhile isFlag))).head?.any isConversion

def beginsField : List Char → Bool
  | '%' :: '(' :: cs =>
    match cs.dropWhile Text.isWordChar with
    | ')' :: style => (cs.head?.any Text.isWordChar) && beginsStyle style
    | _ => false
  | _ => false

def holdsField : List Char → Bool
  | [] => false
  | c :: cs => beginsField (c :: cs) || holdsField cs

/-- The form that a setting stands for, or the message with which it is turned down. -/
def ofSetting (setting : String) : Except String String :=
  let form := if setting.isEmpty then bare else setting
  if holdsField form.toList then .ok form
  else .error ("Invalid format '" ++ form ++ "' for '%' style")

end LogForm
end FileSweep
