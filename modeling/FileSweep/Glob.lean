import FileSweep.Text.Blank

/-! File-name patterns. A star stands for any text, a question mark for any character,
and brackets for one character of a class; a bracket that is never closed stands for
itself. The pattern `*.*` means every file, also one without a dot. -/
namespace FileSweep

structure CharRange where
  low : Char
  high : Char
  deriving DecidableEq, Repr

def CharRange.contains (r : CharRange) (c : Char) : Bool := r.low ≤ c && c ≤ r.high

inductive GlobItem where
  | anyText
  | anyChar
  | char (c : Char)
  | oneOf (ranges : List CharRange)
  | noneOf (ranges : List CharRange)
  deriving DecidableEq, Repr

namespace GlobItem

def admits : GlobItem → Char → Bool
  | anyText, _ => true
  | anyChar, _ => true
  | char d, c => c == d
  | oneOf ranges, c => ranges.any (·.contains c)
  | noneOf ranges, c => !ranges.any (·.contains c)

end GlobItem

namespace Glob

def hyphenAt? (skip : Nat) (cs : List Char) : Option Nat :=
  let n := ((cs.drop skip).takeWhile (· != '-')).length
  if skip + n < cs.length then some (skip + n) else none

/-- Cuts the text between brackets at its range hyphens. A hyphen at the start or right
after a range's end is a member of the class and cuts nothing. -/
def chunks : Nat → Nat → List Char → List (List Char)
  | 0, _, cs => [cs]
  | fuel + 1, skip, cs =>
    match hyphenAt? skip cs with
    | none => [cs]
    | some n => cs.take n :: chunks fuel 2 (cs.drop (n + 1))

/-- Joins the chunk before a hyphen to the one after it when the range between them runs
downwards and so is empty: both ends are lost. -/
def joinEmptyRanges : List (List Char) → List (List Char)
  | [] => []
  | chunk :: chunks =>
    match joinEmptyRanges chunks with
    | [] => [chunk]
    | next :: rest =>
      match chunk.getLast?, next.head? with
      | some low, some high =>
        if high < low then (chunk.dropLast ++ next.drop 1) :: rest else chunk :: next :: rest
      | _, _ => chunk :: next :: rest

/-- The members of a class: the ends of neighbouring chunks make ranges and every other
character stands for itself, also a hyphen that has no lower end before it. `opened` is
the lower end of a range that the chunk ends. -/
def members : Option Char → List (List Char) → List CharRange
  | _, [] => []
  | opened, chunk :: rest =>
    let single (c : Char) : CharRange := ⟨c, c⟩
    let (front, body) := match opened, chunk with
      | some low, high :: cs => ([CharRange.mk low high], cs)
      | some low, [] => ([single low], [])
      | none, cs => ([], cs)
    match rest with
    | [] => front ++ body.map single
    | _ :: _ =>
      match body.getLast? with
      | some low => front ++ body.dropLast.map single ++ members (some low) rest
      | none => front ++ single '-' :: members none rest

def bracketItem (cs : List Char) : GlobItem :=
  let skip := if cs.head? == some '!' then 2 else 1
  let parts := if cs.contains '-' then chunks cs.length skip cs else [cs]
  let cut := if parts.getLast? == some [] then
      match parts.dropLast.getLast? with
      | some last => parts.dropLast.dropLast ++ [last ++ ['-']]
      | none => parts
    else parts
  match joinEmptyRanges cut with
  | [] => .oneOf []
  | [[]] => .oneOf []
  | [['!']] => .anyChar
  | ('!' :: chunk) :: rest => .noneOf (members none (chunk :: rest))
  | parts => .oneOf (members none parts)

/-- The length of the text between an opening bracket and the one that closes it. A
bracket right at the start, or after a leading exclamation mark, is part of the text. -/
def bracketLength? (cs : List Char) : Option Nat :=
  let lead := if cs.head? == some '!' then 1 else 0
  let skip := if (cs.drop lead).head? == some ']' then lead + 1 else lead
  let n := ((cs.drop skip).takeWhile (· != ']')).length
  if skip + n < cs.length then some (skip + n) else none

/-- The items of a pattern of which the first `skip` characters are already read. -/
def itemsFrom : Nat → List Char → List GlobItem
  | _, [] => []
  | skip + 1, _ :: cs => itemsFrom skip cs
  | 0, c :: cs =>
    if c = '*' then .anyText :: itemsFrom 0 cs
    else if c = '?' then .anyChar :: itemsFrom 0 cs
    else if c = '[' then
      match bracketLength? cs with
      | some n => bracketItem (cs.take n) :: itemsFrom (n + 1) cs
      | none => .char c :: itemsFrom 0 cs
    else .char c :: itemsFrom 0 cs

def readItems (cs : List Char) : List GlobItem := itemsFrom 0 cs

/-- A text and every text that is left of it after some characters, the longest first. -/
def leftovers : List Char → List (List Char)
  | [] => [[]]
  | c :: cs => (c :: cs) :: leftovers cs

/-- What is left of a text after one more item, for every way to match it. `rests` holds
what was left before, the longest first, and all of it ends alike: so a star needs only
the first. -/
def afterItem (rests : List (List Char)) : GlobItem → List (List Char)
  | .anyText => (rests.head?.map leftovers).getD []
  | item => rests.filterMap fun
    | [] => none
    | c :: cs => if item.admits c then some cs else none

def matchesItems (items : List GlobItem) (cs : List Char) : Bool :=
  (items.foldl afterItem [cs]).any List.isEmpty

end Glob

structure Glob where
  items : List GlobItem
  deriving DecidableEq, Repr

def Glob.everything : List String := ["*.*", "*"]

/-- A pattern must not be blank, hold a slash or a NUL, or name the parent directory. -/
def Glob.isValid (pattern : String) : Bool :=
  !Text.isBlankText pattern && !pattern.toList.contains '\x00' &&
    !pattern.toList.contains '/' && Text.trim pattern != ".."

def Glob.compile? (pattern : String) : Option Glob :=
  if Glob.isValid pattern then
    some ⟨if Glob.everything.contains pattern then [.anyText] else Glob.readItems pattern.toList⟩
  else none

def Glob.matches (g : Glob) (name : String) : Bool := Glob.matchesItems g.items name.toList

end FileSweep
