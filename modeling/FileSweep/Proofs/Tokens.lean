import FileSweep.Command.Printer
import FileSweep.Proofs.Escapes

/-! The words that a step is written as, and what reading each of them does: the path, the
arguments, two words for every redirection, and the operator. Read one after the other they
give the step back. -/
namespace FileSweep

open Quoting

def sourceToken (source : Handle) (append : Bool) : String :=
  if source = Handle.input then "<" else toString source.val ++ (if append then ">>" else ">")

namespace Redirection

def targetToken (r : Redirection) : String :=
  match r.target with
  | .unset => ""
  | .handle h => "&" ++ toString h.val
  | .file =>
    match r.path with
    | none => discardName
    | some p => escapeControls p

def tokens (r : Redirection) (source : Handle) : List String :=
  if r.isSet then [sourceToken source r.append, r.targetToken] else []

def WellFormed (r : Redirection) : Prop :=
  match r.target with
  | .unset => r.path = none ∧ r.append = false
  | .handle _ => r.path = none ∧ r.append = false
  | .file => ∀ p ∈ r.path, p ≠ "" ∧ ParseState.isDiscardName p = false

theorem WellFormed.eq_default {r : Redirection} (h : r.WellFormed) (hs : r.isSet = false) :
    r = {} := by
  obtain ⟨target, path, append⟩ := r
  cases target with
  | unset =>
    obtain ⟨hp, ha⟩ : path = none ∧ append = false := h
    rw [hp, ha]
  | handle _ => simp [isSet] at hs
  | file => simp [isSet] at hs

end Redirection

namespace Outline

def slotTokens (slots : Slots) (h : Handle) : List String := (slots.slot h).tokens h

def operatorTokens (k : Continuation) : List String :=
  if k = .terminate then [] else [k.symbol]

def tokens (o : Outline) : List String :=
  escapeControls o.path :: o.arguments.map escapeControls ++
    (List.finRange 10).flatMap (slotTokens o.slots) ++ operatorTokens o.continuation

/-- A step as a command line can spell it. -/
structure WellFormed (o : Outline) : Prop where
  path : o.path ≠ ""
  arguments : ∀ w ∈ o.arguments, w ≠ ""
  slots : ∀ h : Handle, (o.slots.slot h).WellFormed

end Outline

namespace Handle

theorem toList_sourceToken (h : Handle) (append : Bool) (hin : h ≠ input) :
    (sourceToken h append).toList = h.digit :: (if append then ['>', '>'] else ['>']) := by
  revert h append; decide

theorem toList_duplicate (h : Handle) : ("&" ++ toString h.val).toList = ['&', h.digit] := by
  revert h; decide

theorem digit_plain (h : Handle) : isControl h.digit = false ∧ h.digit ≠ '^' := by
  revert h; decide

end Handle

namespace ParseState

variable {st : ParseState} {d : Draft} {p : PendingRedirection} {word : String}

theorem toList_isEmpty (h : word ≠ "") : word.toList.isEmpty = false := by
  simpa using h

theorem addWord_path (hd : st.draft = none) (hne : word ≠ "") :
    st.addWord word.toList = { st with draft := some { path := word } } := by
  simp [addWord, toList_isEmpty hne, hd]

theorem addWord_argument (hd : st.draft = some d) (hp : st.pending = none) (hne : word ≠ "") :
    st.addWord word.toList = { st with words := st.words ++ [word] } := by
  simp [addWord, toList_isEmpty hne, hd, hp]

theorem addWord_target (hd : st.draft = some d) (hp : st.pending = some p) (hne : word ≠ "") :
    st.addWord word.toList =
      st.connect
        { target := .file
          path := if isDiscardName word then none else some word
          append := p.append } := by
  simp [addWord, toList_isEmpty hne, hd, hp]

theorem connect_free (hd : st.draft = some d) (hp : st.pending = some p)
    (hfree : (d.slots.slot p.source).isSet = false) (r : Redirection) :
    st.connect r =
      { st with draft := some { d with slots := d.slots.fill p.source r }, pending := none } := by
  simp only [connect, hd, hp, hfree]
  rfl

theorem scanWord_operator (st : ParseState) {k : Continuation} (hk : k ≠ .terminate) :
    st.scanWord k.symbol = st.endStep k := by
  cases k with
  | terminate => exact absurd rfl hk
  | pipe => rfl
  | always =>
    have hnone : st.duplicated? [] = none := by
      unfold duplicated?
      cases st.pending with
      | none => rfl
      | some q => cases h : q.append <;> simp [h, handleAhead?]
    have hread : st.read {} '&' [] = ⟨0, .afterOperator, st.endStep .always⟩ := by
      simp [read, hnone]
    rw [scanWord, show Continuation.always.symbol.toList = ['&'] from rfl, scanFrom, hread]
    rfl
  | ifPass =>
    have hnone : st.duplicated? ['&'] = none := by
      unfold duplicated?
      cases st.pending with
      | none => rfl
      | some q => cases h : q.append <;> simp [h, handleAhead?, endsWord, Handle.ofDigit?]
    have hread : st.read {} '&' ['&'] = ⟨1, .afterOperator, st.endStep .ifPass⟩ := by
      simp [read, hnone]
    rw [scanWord, show Continuation.ifPass.symbol.toList = ['&', '&'] from rfl, scanFrom, hread]
    rfl
  | ifFail => rfl

theorem scanWord_source (st : ParseState) (h : Handle) {append : Bool}
    (hin : h = Handle.input → append = false) :
    st.scanWord (sourceToken h append) = st.openRedirection h append := by
  by_cases hh : h = Handle.input
  · rw [hin hh, hh]; rfl
  · obtain ⟨hplain, hcaret⟩ := h.digit_plain
    rw [scanWord, Handle.toList_sourceToken h append hh, scanFrom,
      read_plain st {} _ hplain fun hc => absurd hc hcaret]
    cases append <;>
      simp [scanFrom, read, WordPlace.push, WordPlace.beforeHandle, WordPlace.afterOperator]

theorem scanWord_duplicate (hp : st.pending = some p) (ha : p.append = false) (h : Handle) :
    st.scanWord ("&" ++ toString h.val) = st.connect { target := .handle h } := by
  have hdup : st.duplicated? [h.digit] = some h := by
    simp [duplicated?, hp, ha, handleAhead?, endsWord]
  have hread : st.read {} '&' [h.digit] =
      ⟨1, .afterOperator, st.connect { target := .handle h }⟩ := by
    simp [read, hdup]
  rw [scanWord, Handle.toList_duplicate, scanFrom, hread]
  simp [scanFrom, WordPlace.afterOperator]

theorem scan_arguments (hd : st.draft = some d) (hp : st.pending = none) (ws : List String)
    (hw : ∀ w ∈ ws, w ≠ "") :
    (ws.map escapeControls).foldl scanWord st = { st with words := st.words ++ ws } := by
  induction ws generalizing st with
  | nil => simp
  | cons w ws ih =>
    have hword := addWord_argument hd hp (hw w (by simp))
    have htail := @ih { st with words := st.words ++ [w] } hd hp
      fun v hv => hw v (List.mem_cons_of_mem w hv)
    rw [List.map_cons, List.foldl_cons, scanWord_escapeControls, hword, htail]
    simp

theorem scan_redirection (hd : st.draft = some d) (hp : st.pending = none) (h : Handle)
    (hfree : d.slots.slot h = {}) {r : Redirection} (hr : r.WellFormed)
    (hin : h = Handle.input → r.append = false) :
    (r.tokens h).foldl scanWord st =
      { st with draft := some { d with slots := d.slots.fill h r } } := by
  by_cases hs : r.isSet = true
  · let opened := st.openRedirection h r.append
    have hod : opened.draft = some d := hd
    have hop : opened.pending = some ⟨h, r.append⟩ := rfl
    have hof : (d.slots.slot h).isSet = false := by rw [hfree]; rfl
    have hconnect := connect_free hod hop hof r
    have htarget : opened.scanWord r.targetToken = opened.connect r := by
      obtain ⟨target, path, append⟩ := r
      cases target with
      | unset => simp [Redirection.isSet] at hs
      | handle k =>
        obtain ⟨rfl, rfl⟩ : path = none ∧ append = false := hr
        exact scanWord_duplicate hop rfl k
      | file =>
        cases path with
        | none =>
          have hword := addWord_target hod hop (show discardName ≠ "" by decide)
          have hscan := scanWord_escapeControls opened discardName
          have hname : escapeControls discardName = discardName := by decide
          rw [hname] at hscan
          rw [show Redirection.targetToken ⟨.file, none, append⟩ = discardName from rfl, hscan, hword,
            if_pos (by decide)]
        | some q =>
          obtain ⟨hne, hname⟩ : q ≠ "" ∧ isDiscardName q = false := hr q rfl
          have hword := addWord_target hod hop hne
          rw [show Redirection.targetToken ⟨.file, some q, append⟩ = escapeControls q from rfl,
            scanWord_escapeControls, hword, if_neg (by simp [hname])]
    rw [Redirection.tokens, if_pos hs, List.foldl_cons, List.foldl_cons, List.foldl_nil,
      scanWord_source st h hin, htarget, hconnect]
    simp [opened, openRedirection, hp]
  · have hr' : r = {} := hr.eq_default (by simpa using hs)
    have hset : d.slots.fill h r = d.slots := by
      apply Slots.ext
      intro i
      rw [Slots.slot_fill]
      split
      next hi => rw [hi, hfree, hr']
      next => rfl
    rw [Redirection.tokens, if_neg hs, List.foldl_nil, hset, ← hd]

/-- The redirections of different handles fill their slots and leave the others alone. -/
theorem scan_slots {slots : Slots} (hwf : ∀ h : Handle, (slots.slot h).WellFormed)
    (hin : (slots.slot Handle.input).append = false) (hs : List Handle) (hnd : hs.Nodup)
    (hd : st.draft = some d) (hp : st.pending = none) (hfree : ∀ h ∈ hs, d.slots.slot h = {}) :
    ∃ filled : Slots,
      (hs.flatMap (Outline.slotTokens slots)).foldl scanWord st =
        { st with draft := some { d with slots := filled } } ∧
      ∀ i : Handle, (i ∈ hs → filled.slot i = slots.slot i) ∧
        (i ∉ hs → filled.slot i = d.slots.slot i) := by
  induction hs generalizing st d with
  | nil => exact ⟨d.slots, by rw [List.flatMap_nil, List.foldl_nil, ← hd], by simp⟩
  | cons h hs ih =>
    obtain ⟨hnot, hnd'⟩ := List.nodup_cons.mp hnd
    have hone := scan_redirection hd hp h (hfree h (by simp)) (hwf h)
      (by rintro rfl; exact hin)
    have hrest : ∀ i ∈ hs, (d.slots.fill h (slots.slot h)).slot i = {} := by
      intro i hi
      have hne : i ≠ h := fun he => hnot (he ▸ hi)
      rw [Slots.slot_fill, if_neg hne, hfree i (List.mem_cons_of_mem h hi)]
    obtain ⟨filled, hfold, hslots⟩ := @ih
      { st with draft := some { d with slots := d.slots.fill h (slots.slot h) } }
      { d with slots := d.slots.fill h (slots.slot h) } hnd' rfl hp hrest
    refine ⟨filled, ?_, ?_⟩
    · rw [List.flatMap_cons, List.foldl_append, Outline.slotTokens, hone, hfold]
    · intro i
      obtain ⟨hfill, hout⟩ := hslots i
      rw [Slots.slot_fill] at hout
      by_cases hih : i = h
      · subst hih
        simpa using hout hnot
      · simpa [hih] using And.intro hfill hout

/-- What a state holds after the words of a step, its operator aside. -/
def begun (st : ParseState) (o : Outline) : ParseState :=
  { st with
    draft := some { path := o.path, slots := o.slots }
    words := o.arguments
    pending := none }

/-- The words of a step, read between steps, begin that step and end it with its operator. -/
theorem scan_step {o : Outline} (ho : o.WellFormed) (hin : (o.slots.slot Handle.input).append = false)
    (steps : List Outline) :
    o.tokens.foldl scanWord { steps } =
      (Outline.operatorTokens o.continuation).foldl scanWord (begun { steps } o) := by
  let first : ParseState := { steps, draft := some { path := o.path } }
  have hpath : ({ steps } : ParseState).scanWord (escapeControls o.path) = first := by
    rw [scanWord_escapeControls, addWord_path rfl ho.path]
  have hargs := @scan_arguments first { path := o.path } rfl rfl o.arguments ho.arguments
  obtain ⟨filled, hfold, hslots⟩ := @scan_slots { first with words := o.arguments }
    { path := o.path } o.slots ho.slots hin (List.finRange 10) (List.nodup_finRange 10) rfl rfl
    (fun h _ => Slots.slot_empty h)
  have hfilled : filled = o.slots := by
    apply Slots.ext
    intro i
    exact (hslots i).1 (List.mem_finRange i)
  have hwords : ({ first with words := first.words ++ o.arguments } : ParseState) =
      { first with words := o.arguments } := by simp [first]
  rw [Outline.tokens, List.foldl_append, List.foldl_append, List.foldl_cons, hpath, hargs, hwords,
    hfold, hfilled]
  rfl

end ParseState
end FileSweep
