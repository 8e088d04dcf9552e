import FileSweep.Command.Parser

/-! Reading a command by looking back. This scanner keeps no notes on its place in a word: whether a
digit names a handle it sees from the characters before it and behind it. A digit that does is taken
back from the text collected and turned into a handle, and both of these can go wrong. -/
namespace FileSweep

/-- What goes wrong when a character is to be taken back and read as a handle. -/
inductive ScanFault where
  | nothingCollected
  /-- What was collected last is not the character before the place. -/
  | otherCharacter (c : Char)
  | noHandle (c : Char)
  deriving DecidableEq, Repr

namespace LookBack

def isDigit (c : Char) : Bool := '0' ≤ c && c ≤ '9'

def startsWord (before : List Char) : Bool := before.getLast?.all Text.isBlank

def digitBefore (before : List Char) : Bool :=
  before.getLast?.any isDigit && startsWord before.dropLast

def digitAfter : List Char → Bool
  | [] => false
  | c :: cs => isDigit c && endsWord cs

def toHandle (c : Char) : Except ScanFault Handle :=
  match Handle.ofDigit? c with
  | some h => .ok h
  | none => .error (.noHandle c)

def takeHandle (before text : List Char) : Except ScanFault (Handle × List Char) :=
  match text.getLast? with
  | none => .error .nothingCollected
  | some c =>
    if before.getLast? = some c then (toHandle c).map fun h => (h, text.dropLast)
    else .error (.otherCharacter c)

def awaitsHandle (st : ParseState) : Bool := st.pending.any fun p => !p.append

/-- What reading one character leads to: how many of the following characters are used with it, the
text collected and the state. -/
structure Reading where
  used : Nat
  text : List Char
  state : ParseState

def read (st : ParseState) (before text : List Char) (c : Char) (rest : List Char) :
    Except ScanFault Reading :=
  let doubled := rest.head? == some c
  if c = '^' ∧ rest.head?.any Quoting.isControl then .ok ⟨1, text ++ rest.take 1, st⟩
  else if !Quoting.isControl c then .ok ⟨0, text ++ [c], st⟩
  else if c = '>' then
    let used := if doubled then 1 else 0
    if digitBefore before && !text.isEmpty then
      (takeHandle before text).map fun (source, left) =>
        ⟨used, [], (st.addWord left).openRedirection source doubled⟩
    else .ok ⟨used, [], (st.addWord text).openRedirection Handle.output doubled⟩
  else if c = '<' then .ok ⟨0, [], (st.addWord text).openRedirection Handle.input false⟩
  else if c = '|' then
    if doubled then .ok ⟨1, [], (st.addWord text).endStep .ifFail⟩
    else .ok ⟨0, [], (st.addWord text).endStep .pipe⟩
  else
    match rest.head?.filter fun _ => digitAfter rest && awaitsHandle st with
    | some d =>
      (toHandle d).map fun h => ⟨1, [], (st.addWord text).connect { target := .handle h }⟩
    | none =>
      if doubled then .ok ⟨1, [], (st.addWord text).endStep .ifPass⟩
      else .ok ⟨0, [], (st.addWord text).endStep .always⟩

/-- Reads the rest of a word, behind the characters `before` and with the first `skip` characters
already used. -/
def scanFrom : Nat → List Char → List Char → List Char → ParseState → Except ScanFault ParseState
  | _, _, text, [], st => .ok (st.addWord text)
  | skip + 1, before, text, c :: cs, st => scanFrom skip (before ++ [c]) text cs st
  | 0, before, text, c :: cs, st =>
    match read st before text c cs with
    | .error e => .error e
    | .ok r => scanFrom r.used (before ++ [c]) r.text cs r.state

def scanWord (st : ParseState) (word : String) : Except ScanFault ParseState :=
  scanFrom 0 [] [] word.toList st

def scanAll : ParseState → List String → Except ScanFault ParseState
  | st, [] => .ok st
  | st, word :: words =>
    match scanWord st word with
    | .error e => .error e
    | .ok st => scanAll st words

/-- The chain that the words from `first` up to, not including, `last` spell. -/
def parseSlice (words : List String) (first : Int) (last : Option Int) : Except ScanFault Chain :=
  let i := Chain.sliceIndex words.length first
  let j := (last.map (Chain.sliceIndex words.length)).getD words.length
  (scanAll {} ((words.take j).drop i)).map fun st => ⟨(st.endStep .terminate).steps.map Outline.step⟩

end LookBack
end FileSweep
