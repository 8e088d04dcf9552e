import FileSweep.Glob
import FileSweep.Shell.State

/-! The expansion of words. A word becomes fields: values that do not stand in quotes are
split, and a field with a pattern becomes the paths that match it. Expanding a word may
run a script, so the state is carried along. -/
namespace FileSweep
namespace Shell

/-- A character of a field. The flag tells that it stands for itself in a pattern. -/
abbrev FieldChar := Char × Bool

def flagged (quoted : Bool) (cs : List Char) : List FieldChar := cs.map fun c => (c, quoted)

structure Fields where
  done : List (List FieldChar) := []
  current : Option (List FieldChar) := none

namespace Fields

def add (f : Fields) (cs : List FieldChar) : Fields :=
  { f with current := some (f.current.getD [] ++ cs) }

def finish (f : Fields) : Fields :=
  match f.current with
  | none => f
  | some cs => { done := f.done ++ [cs] }

/-- Adds a value that is split at separators. Blanks only part fields, while every other
separator ends one. -/
def addSplit (separators : List Char) (f : Fields) : List Char → Fields
  | [] => f
  | c :: cs =>
    if !separators.contains c then addSplit separators (f.add [(c, false)]) cs
    else if c.isWhitespace then addSplit separators f.finish cs
    else addSplit separators { done := f.done ++ [f.current.getD []] } cs

def addEach (f : Fields) : List (List Char) → Fields
  | [] => f
  | [p] => f.add (flagged true p)
  | p :: ps => addEach (f.add (flagged true p)).finish ps

def addEachSplit (separators : List Char) (f : Fields) : List (List Char) → Fields
  | [] => f
  | [p] => f.addSplit separators p
  | p :: ps => addEachSplit separators (f.addSplit separators p).finish ps

def toList (f : Fields) : List (List FieldChar) := f.finish.done

end Fields

def patternItems (cs : List FieldChar) : List GlobItem :=
  (cs.splitBy fun a b => a.2 == b.2).flatMap fun run =>
    let text := run.map Prod.fst
    match run with
    | (_, true) :: _ => text.map GlobItem.char
    | _ => Glob.readItems text

def isActive (cs : List FieldChar) : Bool :=
  cs.any fun c => !c.2 && (c.1 == '*' || c.1 == '?' || c.1 == '[')

def namesIn (h : Host) (dir : String) : List (List Char) :=
  let names := ((h.entry? dir).map fun e => e.children.map Prod.fst).getD []
  (names.mergeSort fun a b => a ≤ b).map String.toList

def fieldComponents : List FieldChar → List (List FieldChar)
  | [] => [[]]
  | c :: cs =>
    if c.1 = '/' then [] :: fieldComponents cs
    else
      match fieldComponents cs with
      | [] => [[c]]
      | part :: parts => (c :: part) :: parts

/-- The paths that match the components of a pattern below what is already matched. A
leading dot is only matched by itself. -/
def matchPaths (h : Host) : List Char → List (List FieldChar) → List (List Char)
  | base, [] => [base]
  | base, part :: parts =>
    let tail := if parts.isEmpty then [] else ['/']
    if isActive part then
      let dir := if base.isEmpty then "." else String.ofList base
      let hidden := (part.head?.map Prod.fst) == some '.'
      let names := (namesIn h dir).filter fun name =>
        (hidden || name.head? != some '.') && Glob.matchesItems (patternItems part) name
      names.flatMap fun name => matchPaths h (base ++ name ++ tail) parts
    else
      let next := base ++ part.map Prod.fst ++ tail
      if parts.isEmpty && !(h.pathExists (String.ofList next) || h.isLink (String.ofList next))
      then [] else matchPaths h next parts

/-- The texts that a field stands for: the paths that match it, or itself if none does. -/
def fieldTexts (h : Host) (f : List FieldChar) : List (List Char) :=
  let literal := f.map Prod.fst
  if isActive f then
    match matchPaths h [] (fieldComponents f) with
    | [] => [literal]
    | paths => paths
  else [literal]

/-- Removes what matches a pattern from the start or the end of a text: the longest match
or the shortest. -/
def removeMatch (items : List GlobItem) (fromEnd longest : Bool) (cs : List Char) :
    List Char :=
  let places := List.range (cs.length + 1)
  let order := if fromEnd == longest then places else places.reverse
  let found := order.find? fun i =>
    Glob.matchesItems items (if fromEnd then cs.drop i else cs.take i)
  match found with
  | some i => if fromEnd then cs.take i else cs.drop i
  | none => cs

inductive Modifier where
  | value
  | length
  /-- Another word in its place, by a sign; `orEmpty` counts an empty value as unset. -/
  | instead (sign : Char) (orEmpty : Bool) (word : List Char)
  | trim (fromEnd longest : Bool) (pattern : List Char)
  deriving DecidableEq, Repr

def readBraced? (cs : List Char) : Option (List Char × Modifier) :=
  let named (cs : List Char) : Option (List Char × List Char) :=
    match cs with
    | [] => none
    | c :: rest =>
      if c.isDigit then some (cs.takeWhile Char.isDigit, cs.dropWhile Char.isDigit)
      else if isNameStart c then some (cs.takeWhile isNameChar, cs.dropWhile isNameChar)
      else if isSpecialName c then some ([c], rest)
      else none
  let isSign (c : Char) : Bool := "-=?+".toList.contains c
  let counted := match cs with
    | '#' :: rest =>
      match named rest with
      | some (name, []) => some name
      | _ => none
    | _ => none
  match counted with
  | some name => some (name, .length)
  | none =>
    match named cs with
    | none => none
    | some (name, rest) =>
      match rest with
      | [] => some (name, .value)
      | '%' :: '%' :: pattern => some (name, .trim true true pattern)
      | '%' :: pattern => some (name, .trim true false pattern)
      | '#' :: '#' :: pattern => some (name, .trim false true pattern)
      | '#' :: pattern => some (name, .trim false false pattern)
      | ':' :: c :: word => if isSign c then some (name, .instead c true word) else none
      | c :: word => if isSign c then some (name, .instead c false word) else none

/-- How words are expanded: what runs a script in place of a word, and whether values are
split into fields. -/
structure Expander where
  run : State → List Char → State × List Char
  split : Bool

abbrev Expanded := State × Fields

def addParam (x : Expander) (name : List Char) (quoted : Bool) : Expanded → Expanded
  | (s, f) =>
    if s.demanding && (s.value? name).isNone && !"@*".toList.any (fun c => name == [c]) then
      (s.breakOff (String.ofList name ++ ": parameter not set"), f)
    else if !x.split then (s, f.add (flagged quoted (s.value name)))
    else
      match name, quoted with
      | ['@'], true => (s, f.addEach s.params)
      | ['@'], false => (s, f.addEachSplit s.separators s.params)
      | ['*'], false => (s, f.addEachSplit s.separators s.params)
      | _, true => (s, f.add (flagged true (s.value name)))
      | _, false => (s, f.addSplit s.separators (s.value name))

def addValue (x : Expander) (value : List Char) (quoted : Bool) : Expanded → Expanded
  | (s, f) =>
    if x.split && !quoted then (s, f.addSplit s.separators value)
    else (s, f.add (flagged quoted value))

def joined (f : Fields) : List Char := spaced (f.toList.map fun cs => cs.map Prod.fst)

mutual

def expandPart (x : Expander) : Nat → Expanded → Part → Expanded
  | 0, e, _ => e
  | fuel + 1, (s, f), part =>
    match part with
    | .text cs quoted => if cs.isEmpty && !quoted then (s, f) else (s, f.add (flagged quoted cs))
    | .param name quoted => addParam x name quoted (s, f)
    | .command script quoted =>
      let (s, text) := x.run s script
      addValue x text quoted (s, f)
    | .arith expr _ =>
      let (s, text) := expandText x fuel s (innerWord true expr)
      match arithmetic s.value text with
      | some (n, none) => (s, f.add (flagged true (toString n).toList))
      | some (n, some name) =>
        (s.assign name (toString n).toList, f.add (flagged true (toString n).toList))
      | none =>
        (s.breakOff ("arithmetic expression: expecting primary: \"" ++ String.ofList text ++ "\""),
          f)
    | .braced content quoted =>
      match readBraced? content with
      | none => (s.breakOff "Bad substitution", f)
      | some (name, modifier) => expandBraced x fuel (s, f) name modifier quoted

def expandBraced (x : Expander) : Nat → Expanded → List Char → Modifier → Bool → Expanded
  | 0, e, _, _, _ => e
  | fuel + 1, (s, f), name, modifier, quoted =>
    match modifier with
    | .value => addParam x name quoted (s, f)
    | .length => (s, f.add (flagged true (toString (s.value name).length).toList))
    | .trim fromEnd longest pattern =>
      let (s, items) := expandPattern x fuel s (innerWord false pattern)
      addValue x (removeMatch items fromEnd longest (s.value name)) quoted (s, f)
    | .instead sign orEmpty word =>
      let missing := match s.value? name with
        | none => true
        | some v => orEmpty && v.isEmpty
      let w := innerWord quoted word
      match sign, missing with
      | '+', true => (s, f)
      | '+', false => expandParts x fuel (s, f) w
      | '=', true =>
        let (s, text) := expandText x fuel s w
        addValue x text quoted (s.assign name text, f)
      | '?', true =>
        let (s, text) := expandText x fuel s w
        let usual := if orEmpty then "parameter not set or null" else "parameter not set"
        (s.breakOff (String.ofList name ++ ": " ++
          (if text.isEmpty then usual else String.ofList text)), f)
      | _, true => expandParts x fuel (s, f) w
      | _, false => addParam x name quoted (s, f)

def expandParts (x : Expander) : Nat → Expanded → Word → Expanded
  | 0, e, _ => e
  | _, e, [] => e
  | fuel + 1, e, part :: parts => expandParts x fuel (expandPart x fuel e part) parts

def expandText (x : Expander) : Nat → State → Word → State × List Char
  | 0, s, _ => (s, [])
  | fuel + 1, s, w =>
    let (s, f) := expandParts { x with split := false } fuel (s, {}) w
    (s, joined f)

/-- A word as a pattern: what stands in quotes matches only itself. -/
def expandPattern (x : Expander) : Nat → State → Word → State × List GlobItem
  | 0, s, _ => (s, [])
  | fuel + 1, s, w =>
    let (s, f) := expandParts { x with split := false } fuel (s, {}) w
    (s, patternItems f.toList.flatten)

end

def expandTilde (s : State) (w : Word) : Word :=
  match w with
  | .text ('~' :: cs) false :: rest =>
    let home := [Part.text (s.value "HOME".toList) true]
    if cs.head? = some '/' then home ++ .text cs false :: rest
    else if cs.isEmpty && rest.isEmpty then home
    else w
  | _ => w

def expansionFuel : Nat := 10000

def expandWords (run : State → List Char → State × List Char) :
    State → List Word → State × List (List Char)
  | s, [] => (s, [])
  | s, w :: ws =>
    let (s, f) := expandParts ⟨run, true⟩ expansionFuel (s, {}) (expandTilde s w)
    let texts := f.toList.flatMap (fieldTexts s.host)
    let (s, more) := expandWords run s ws
    (s, texts ++ more)

def expandOne (run : State → List Char → State × List Char) (s : State) (w : Word) :
    State × List Char :=
  expandText ⟨run, false⟩ expansionFuel s (expandTilde s w)

end Shell
end FileSweep
