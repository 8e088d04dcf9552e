import FileSweep.Command.Basic
import FileSweep.Command.Quoting
import FileSweep.Command.Words
import FileSweep.Text.Letters

/-! Reading a command chain from words. Operators are found character by character inside
the words, so they need no blanks around them, and a caret before a control character
makes it plain text. Parsing never fails: what makes no sense is dropped or read as text. -/
namespace FileSweep

/-- A step whose argument words are still apart. -/
structure Outline where
  path : String
  arguments : List String := []
  continuation : Continuation := .terminate
  slots : Slots := Slots.empty
  deriving DecidableEq, Repr

def Outline.step (o : Outline) : Step :=
  { path := o.path
    args := String.intercalate " " (o.arguments.map Quoting.quoteIfNeeded)
    continuation := o.continuation
    slots := o.slots }

/-- A step whose operator has not come yet. -/
structure Draft where
  path : String
  slots : Slots := Slots.empty
  deriving DecidableEq, Repr

structure PendingRedirection where
  source : Handle
  append : Bool := false
  deriving DecidableEq, Repr

structure ParseState where
  steps : List Outline := []
  draft : Option Draft := none
  words : List String := []
  pending : Option PendingRedirection := none
  deriving DecidableEq, Repr

namespace ParseState

def isDiscardName (s : String) : Bool := String.ofList (s.toList.map Char.toLower) == "nul"

/-- Settles the pending redirection. The first redirection of a handle wins, and one that
comes before the path of its step is dropped. -/
def connect (st : ParseState) (r : Redirection) : ParseState :=
  match st.draft, st.pending with
  | some d, some p =>
    let slots := if (d.slots.slot p.source).isSet then d.slots else d.slots.fill p.source r
    { st with draft := some { d with slots }, pending := none }
  | _, _ => { st with pending := none }

/-- Takes a finished word: as the path of a step, as the target of the pending
redirection, or as an argument. -/
def addWord (st : ParseState) (word : List Char) : ParseState :=
  if word.isEmpty then st
  else
    let text := String.ofList word
    match st.draft, st.pending with
    | none, _ => { st with draft := some { path := text } }
    | some _, none => { st with words := st.words ++ [text] }
    | some _, some p =>
      st.connect
        { target := .file
          path := if isDiscardName text then none else some text
          append := p.append }

def openRedirection (st : ParseState) (source : Handle) (append : Bool) : ParseState :=
  { st with pending := some { source, append } }

def endStep (st : ParseState) (continuation : Continuation) : ParseState :=
  match st.draft with
  | none => { steps := st.steps }
  | some d =>
    { steps := st.steps ++
        [{ path := d.path, arguments := st.words, continuation, slots := d.slots }] }

end ParseState

/-- A place inside a word: the text collected, whether the place is the start of the word
or follows a blank, and whether the character before it is a digit in such a place. -/
structure WordPlace where
  text : List Char := []
  fresh : Bool := true
  digit : Option Handle := none
  deriving DecidableEq, Repr

namespace WordPlace

def push (w : WordPlace) (c : Char) : WordPlace :=
  { text := w.text ++ [c]
    fresh := Text.isBlank c
    digit := if w.fresh then Handle.ofDigit? c else none }

def pushEscaped (w : WordPlace) (c : Char) : WordPlace :=
  { text := w.text ++ [c], fresh := false }

/-- The text before the digit that names a handle, or all of it if none does. -/
def beforeHandle (w : WordPlace) : List Char :=
  if w.digit.isSome then w.text.dropLast else w.text

def afterOperator : WordPlace := { fresh := false }

end WordPlace

def endsWord : List Char → Bool
  | [] => true
  | c :: _ => Text.isBlank c

def handleAhead? : List Char → Option Handle
  | [] => none
  | c :: cs => if endsWord cs then Handle.ofDigit? c else none

namespace ParseState

/-- The handle that an ampersand connects the pending redirection to. A redirection that
appends is never connected to a handle. -/
def duplicated? (st : ParseState) (rest : List Char) : Option Handle :=
  match st.pending with
  | some p => if p.append then none else handleAhead? rest
  | none => none

/-- What reading one character leads to: how many of the following characters are used
with it, the place reached and the state. -/
structure Reading where
  used : Nat
  place : WordPlace
  state : ParseState

def read (st : ParseState) (w : WordPlace) (c : Char) (rest : List Char) : Reading :=
  if c = '^' then
    match rest with
    | d :: _ => if Quoting.isControl d then ⟨1, w.pushEscaped d, st⟩ else ⟨0, w.push c, st⟩
    | [] => ⟨0, w.push c, st⟩
  else if c = '>' then
    let doubled := rest.head? == some '>'
    ⟨if doubled then 1 else 0, .afterOperator,
      (st.addWord w.beforeHandle).openRedirection (w.digit.getD Handle.output) doubled⟩
  else if c = '<' then
    ⟨0, .afterOperator, (st.addWord w.text).openRedirection Handle.input false⟩
  else if c = '|' then
    if rest.head? == some '|' then ⟨1, .afterOperator, (st.addWord w.text).endStep .ifFail⟩
    else ⟨0, .afterOperator, (st.addWord w.text).endStep .pipe⟩
  else if c = '&' then
    match st.duplicated? rest with
    | some h => ⟨1, .afterOperator, (st.addWord w.text).connect { target := .handle h }⟩
    | none =>
      if rest.head? == some '&' then ⟨1, .afterOperator, (st.addWord w.text).endStep .ifPass⟩
      else ⟨0, .afterOperator, (st.addWord w.text).endStep .always⟩
  else ⟨0, w.push c, st⟩

/-- Reads the rest of a word of which the first `skip` characters are already used. -/
def scanFrom : Nat → List Char → WordPlace → ParseState → ParseState
  | _, [], w, st => st.addWord w.text
  | skip + 1, _ :: cs, w, st => scanFrom skip cs w st
  | 0, c :: cs, w, st =>
    let r := st.read w c cs
    scanFrom r.used cs r.place r.state

def scanWord (st : ParseState) (word : String) : ParseState := scanFrom 0 word.toList {} st

def scanAll (words : List String) : ParseState := words.foldl scanWord {}

end ParseState

namespace Chain

/-- The steps that a list of words spells, their arguments apart. -/
def outline (words : List String) : List Outline :=
  ((ParseState.scanAll words).endStep .terminate).steps

def parse (words : List String) : Chain := ⟨(outline words).map Outline.step⟩

def parseLine (line : String) : Chain := parse (Words.split line)

/-- An index that counts from the end when it is negative, held within the list. -/
def sliceIndex (length : Nat) (i : Int) : Nat :=
  if i < 0 then (i + length).toNat else min i.toNat length

/-- The chain spelled by the words from `first` up to, not including, `last`. -/
def parseSlice (words : List String) (first : Int) (last : Option Int) : Chain :=
  let i := sliceIndex words.length first
  let j := (last.map (sliceIndex words.length)).getD words.length
  parse ((words.take j).drop i)

end Chain
end FileSweep
