import FileSweep.Json.Value
import FileSweep.Text.Hex

/-! Writing JSON text, on one line or laid out with two blanks a level. Characters beyond
ASCII are written as themselves. -/
namespace FileSweep
namespace Json

def escapedChar (c : Char) : List Char :=
  if c = '"' then ['\\', '"']
  else if c = '\\' then ['\\', '\\']
  else if c = '\n' then ['\\', 'n']
  else if c = '\r' then ['\\', 'r']
  else if c = '\t' then ['\\', 't']
  else if c = '\x08' then ['\\', 'b']
  else if c = '\x0c' then ['\\', 'f']
  else if c.toNat < 0x20 then '\\' :: 'u' :: Text.hexChars 4 c.toNat
  else [c]

def stringChars (s : String) : List Char :=
  '"' :: s.toList.flatMap escapedChar ++ ['"']

def realText : Real → String
  | .nan => "NaN"
  | .infinity false => "Infinity"
  | .infinity true => "-Infinity"
  | .decimal negative digits exponent =>
    (if negative then "-" else "") ++ toString digits ++ "e" ++ toString exponent

/-- How members and items are set apart: the line break before one at a given depth, and
what follows a colon. -/
structure Layout where
  lineBreak : Nat → List Char
  afterColon : List Char

def Layout.oneLine : Layout := ⟨fun _ => [], []⟩

def Layout.indented : Layout := ⟨fun depth => '\n' :: List.replicate (2 * depth) ' ', [' ']⟩

mutual

def valueChars (layout : Layout) (depth : Nat) : Value → List Char
  | .null => "null".toList
  | .bool true => "true".toList
  | .bool false => "false".toList
  | .int n => (toString n).toList
  | .real r => (realText r).toList
  | .str s => stringChars s
  | .arr [] => ['[', ']']
  | .arr (item :: items) =>
    '[' :: layout.lineBreak (depth + 1) ++ valueChars layout (depth + 1) item ++
      itemsChars layout (depth + 1) items ++ layout.lineBreak depth ++ [']']
  | .obj [] => ['\x7b', '\x7d']
  | .obj ((name, value) :: members) =>
    '\x7b' :: layout.lineBreak (depth + 1) ++ stringChars name ++ ':' :: layout.afterColon ++
      valueChars layout (depth + 1) value ++ membersChars layout (depth + 1) members ++
      layout.lineBreak depth ++ ['\x7d']

def itemsChars (layout : Layout) (depth : Nat) : List Value → List Char
  | [] => []
  | item :: items =>
    ',' :: layout.lineBreak depth ++ valueChars layout depth item ++ itemsChars layout depth items

def membersChars (layout : Layout) (depth : Nat) : List (String × Value) → List Char
  | [] => []
  | (name, value) :: members =>
    ',' :: layout.lineBreak depth ++ stringChars name ++ ':' :: layout.afterColon ++
      valueChars layout depth value ++ membersChars layout depth members

end

def print (v : Value) : String := String.ofList (valueChars .oneLine 0 v)

def printIndented (v : Value) : String := String.ofList (valueChars .indented 0 v)

end Json
end FileSweep
