import FileSweep.Json.Value
import FileSweep.Text.Quoted
import FileSweep.Text.Style
import FileSweep.Text.Template

/-! Filling in a template: every field is replaced by the value that it names, converted
and styled as it asks. -/
namespace FileSweep

inductive FillError where
  /-- The template cannot be read, or asks for something that there is not. -/
  | unfilled
  | style (e : Text.StyleError)
  | noAttribute (typeName name : String)
  | noItems (typeName : String)
  /-- An item of a text was named and not counted. -/
  | namedItem
  /-- A style for a value that knows none. -/
  | noStyle (typeName : String)
  deriving DecidableEq, Repr

namespace FillError

/-- Whether the template, given as it is, takes the place of the message. -/
def leavesTemplate : FillError → Bool
  | unfilled => true
  | style .unfit => true
  | _ => false

def message : FillError → String
  | unfilled => "the template cannot be filled in"
  | style .unfit => "Invalid format specifier"
  | style .beyondDoubles => "int too large to convert to float"
  | style .beyondWords => "int too large to convert to C long"
  | style .beyondCharacters => "%c arg not in range(0x110000)"
  | noAttribute typeName name =>
    Text.quoted typeName ++ " object has no attribute " ++ "'" ++ name ++ "'"
  | noItems typeName => Text.quoted typeName ++ " object is not subscriptable"
  | namedItem => "string indices must be integers, not 'str'"
  | noStyle typeName => "unsupported format string passed to " ++ typeName ++ ".__format__"

end FillError

namespace Message

abbrev Result (α : Type) := Except FillError α

def plain : Json.Value → Result String
  | .null => .ok "None"
  | .bool true => .ok "True"
  | .bool false => .ok "False"
  | .int n => .ok (toString n)
  | .str s => .ok s
  | _ => .error .unfilled

/-- The form that shows where a text ends. -/
def quoted : Json.Value → Result String
  | .str s => .ok (Text.quoted s)
  | v => plain v

def convert (v : Json.Value) : Char → Result String
  | 's' => plain v
  | 'r' => quoted v
  | 'a' => (quoted v).map Text.asciiOnly
  | _ => .error .unfilled

/-- The parts of an integer, which is a fraction and a complex number too. -/
def numberPart? (n : Int) : String → Option Int
  | "real" => some n
  | "numerator" => some n
  | "imag" => some 0
  | "denominator" => some 1
  | _ => none

def integer? : Json.Value → Option Int
  | .int n => some n
  | .bool b => some (if b then 1 else 0)
  | _ => none

def part (v : Json.Value) : Text.Template.Step → Result Json.Value
  | .broken => .error .unfilled
  | .attribute name =>
    match (integer? v).bind fun n => numberPart? n name with
    | some n => .ok (.int n)
    | none => .error (.noAttribute v.typeName name)
  | .index n =>
    match v with
    | .str s =>
      match s.toList[n]? with
      | some c => .ok (.str (String.singleton c))
      | none => .error .unfilled
    | v => .error (.noItems v.typeName)
  | .key _ =>
    match v with
    | .str _ => .error .namedItem
    | v => .error (.noItems v.typeName)

def styled (v : Json.Value) (style : List Char) : Result (List Char) :=
  if style.isEmpty then (plain v).map String.toList
  else
    match v with
    | .str s =>
      match (Text.Style.parse? .left .text style).bind fun st => st.text? s.toList with
      | some cs => .ok cs
      | none => .error (.style .unfit)
    | v =>
      match integer? v with
      | none => .error (.noStyle v.typeName)
      | some n =>
        match Text.Style.parse? .right .decimal style with
        | none => .error (.style .unfit)
        | some st => (st.integer n).mapError .style

/-- The value that a field means, converted as it asks. Values have names, and a field that
counts places means none. -/
def valueOf (args : List (String × Json.Value)) (f : Text.Template.Field) : Result Json.Value := do
  if Text.Template.Field.isPlace f.name then .error .unfilled
  let v ← match args.lookup (String.ofList f.name) with
    | some v => pure v
    | none => .error .unfilled
  let v ← f.steps.foldlM part v
  match f.conversion with
  | none => return v
  | some c => return .str (← convert v c)

/-- Fills in a template; `depth` tells how deep fields may stand in styles of fields. -/
def fillChars (args : List (String × Json.Value)) : Nat → List Char → Result (List Char)
  | 0, _ => .error .unfilled
  | depth + 1, template => do
    let parts ← (Text.Template.pieces template).mapM fun
      | .text c => pure [c]
      | .broken => .error .unfilled
      | .field f => do
        let v ← valueOf args f
        let style ← if f.hasNestedStyle then fillChars args depth f.style else pure f.style
        styled v style
    return parts.flatten

/-- Fills in a template with named values. The style of a field may hold fields, but the
style of those may not. -/
def fill (template : String) (args : List (String × Json.Value)) : Result String :=
  (fillChars args 2 template.toList).map String.ofList

end Message
end FileSweep
