import FileSweep.Text.Digits

/-! Message templates. A field in braces stands for a value, and a doubled brace for
itself. A field names its value, may lead from it to a part, and may give a conversion
after an exclamation mark and a style after a colon, which can hold fields in turn. -/
namespace FileSweep
namespace Text
namespace Template

inductive Step where
  | attribute (name : String)
  | key (name : String)
  | index (n : Nat)
  /-- What cannot be read as a step. -/
  | broken
  deriving DecidableEq, Repr

structure Field where
  /-- What names the value, and the way from it to a part. -/
  path : List Char
  conversion : Option Char := none
  style : List Char := []
  deriving DecidableEq, Repr

inductive Piece where
  | text (c : Char)
  | field (f : Field)
  /-- Where a template cannot be read any further. -/
  | broken
  deriving DecidableEq, Repr

/-- Where the reading of a template stands. What was read of a field is kept reversed. -/
inductive Position where
  | outside
  /-- In the path of a field; in brackets, a brace is like any other character. -/
  | path (read : List Char) (inBrackets : Bool)
  /-- Behind the exclamation mark. -/
  | conversion (path : List Char)
  /-- Behind the conversion. -/
  | afterConversion (path : List Char) (conversion : Option Char)
  /-- In the style, with the number of braces that are open, the field's own included. -/
  | style (path : List Char) (conversion : Option Char) (depth : Nat) (read : List Char)
  deriving DecidableEq, Repr

/-- The conversion that a character asks for; the zero character asks for none. -/
def conversionOf (c : Char) : Option Char := if c.toNat = 0 then none else some c

def piecesFrom : Position → List Char → List Piece
  | .outside, [] => []
  | .outside, '\x7b' :: '\x7b' :: cs => .text '\x7b' :: piecesFrom .outside cs
  | .outside, '\x7d' :: '\x7d' :: cs => .text '\x7d' :: piecesFrom .outside cs
  | .outside, c :: cs =>
    if c = '\x7b' then piecesFrom (.path [] false) cs
    else if c = '\x7d' then [.broken]
    else .text c :: piecesFrom .outside cs
  | .path read true, c :: cs => piecesFrom (.path (c :: read) (c != ']')) cs
  | .path read false, c :: cs =>
    if c = '\x7b' then [.broken]
    else if c = '\x7d' then .field { path := read.reverse } :: piecesFrom .outside cs
    else if c = '!' then piecesFrom (.conversion read.reverse) cs
    else if c = ':' then piecesFrom (.style read.reverse none 0 []) cs
    else piecesFrom (.path (c :: read) (c = '[')) cs
  | .conversion path, c :: cs => piecesFrom (.afterConversion path (conversionOf c)) cs
  | .afterConversion path conversion, c :: cs =>
    if c = '\x7d' then .field { path, conversion } :: piecesFrom .outside cs
    else if c = ':' then piecesFrom (.style path conversion 0 []) cs
    else [.broken]
  | .style path conversion 0 read, c :: cs =>
    if c = '\x7d' then
      .field { path, conversion, style := read.reverse } :: piecesFrom .outside cs
    else if c = '\x7b' then piecesFrom (.style path conversion 1 (c :: read)) cs
    else piecesFrom (.style path conversion 0 (c :: read)) cs
  | .style path conversion (depth + 1) read, c :: cs =>
    if c = '\x7d' then piecesFrom (.style path conversion depth (c :: read)) cs
    else if c = '\x7b' then piecesFrom (.style path conversion (depth + 2) (c :: read)) cs
    else piecesFrom (.style path conversion (depth + 1) (c :: read)) cs
  | _, [] => [.broken]

def pieces (template : List Char) : List Piece := piecesFrom .outside template

namespace Field

def indexLimit : Nat := 9223372036854775807

/-- Whether a name counts places instead: it is empty or consists of digits. -/
def isPlace (name : List Char) : Bool := name.all fun c => (digitValue? c).isSome

def itemStep (name : List Char) : Step :=
  if name.isEmpty then .broken
  else if isPlace name then
    let n := (name.filterMap digitValue?).foldl (fun n d => n * 10 + d) 0
    if n ≤ indexLimit then .index n else .broken
  else .key (String.ofList name)

def attributeStep (name : List Char) : Step :=
  if name.isEmpty then .broken else .attribute (String.ofList name)

/-- Where the reading of steps stands. What was read of a name is kept reversed. -/
inductive Position where
  | between
  | attribute (read : List Char)
  | item (read : List Char)
  deriving DecidableEq, Repr

def stepsFrom : Position → List Char → List Step
  | .between, [] => []
  | .between, c :: cs =>
    if c = '.' then stepsFrom (.attribute []) cs
    else if c = '[' then stepsFrom (.item []) cs
    else [.broken]
  | .attribute read, [] => [attributeStep read.reverse]
  | .attribute read, c :: cs =>
    if c = '.' then attributeStep read.reverse :: stepsFrom (.attribute []) cs
    else if c = '[' then attributeStep read.reverse :: stepsFrom (.item []) cs
    else stepsFrom (.attribute (c :: read)) cs
  | .item _, [] => [.broken]
  | .item read, c :: cs =>
    if c = ']' then itemStep read.reverse :: stepsFrom .between cs
    else stepsFrom (.item (c :: read)) cs

def endsName (c : Char) : Bool := c = '.' || c = '['

def name (f : Field) : List Char := f.path.takeWhile fun c => !endsName c

/-- The way from the value to the part that is meant. -/
def steps (f : Field) : List Step :=
  stepsFrom .between (f.path.dropWhile fun c => !endsName c)

def hasNestedStyle (f : Field) : Bool := f.style.contains '\x7b'

end Field
end Template
end Text
end FileSweep
