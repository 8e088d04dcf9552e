import FileSweep.Command.LookBack
import FileSweep.Proofs.Parsing

/-! The chains that come of reading. What the scanner notes of its place in a word is what it would
see if it looked back, and the digit that names a handle is the last character that it has collected.
So the scanner that looks back never fails and reads the same, and the steps of every chain are well
formed. -/
namespace FileSweep

namespace Handle

theorem isDigit_iff {c : Char} : LookBack.isDigit c = true ↔ 48 ≤ c.toNat ∧ c.toNat ≤ 57 := by
  rw [LookBack.isDigit, Bool.and_eq_true, decide_eq_true_eq, decide_eq_true_eq]
  exact Iff.rfl

theorem ofDigit?_eq_some {c : Char} {h : Handle} (hc : ofDigit? c = some h) : c = h.digit := by
  unfold ofDigit? at hc
  split at hc
  next hlt =>
    split at hc
    next hle =>
      have hzero : 48 ≤ c.toNat := hle
      obtain rfl := Option.some.inj hc
      rw [digit, show 48 + (c.toNat - 48) = c.toNat by omega, Char.ofNat_toNat]
    next => cases hc
  next => cases hc

theorem isSome_ofDigit? (c : Char) : (ofDigit? c).isSome = LookBack.isDigit c := by
  rw [Bool.eq_iff_iff, isDigit_iff]
  unfold ofDigit?
  split
  next hlt =>
    split
    next hle =>
      have hzero : 48 ≤ c.toNat := hle
      simp only [Option.isSome_some, true_iff]
      omega
    next hle =>
      have hzero : ¬ 48 ≤ c.toNat := hle
      simp [hzero]
  next hlt =>
    simp only [Option.isSome_none, Bool.false_eq_true, false_iff]
    omega

end Handle

namespace LookBack

open Quoting

/-- The notes that a place holds are what is seen from it by looking back. -/
structure Sees (before : List Char) (w : WordPlace) : Prop where
  fresh : w.fresh = startsWord before
  digit : w.digit.isSome = digitBefore before
  taken : ∀ h ∈ w.digit, before.getLast? = some h.digit ∧ ∃ front, w.text = front ++ [h.digit]

theorem startsWord_concat (before : List Char) (c : Char) :
    startsWord (before ++ [c]) = Text.isBlank c := by
  simp [startsWord]

theorem digitBefore_concat (before : List Char) (c : Char) :
    digitBefore (before ++ [c]) = (isDigit c && startsWord before) := by
  simp [digitBefore]

theorem isBlank_of_isControl {c : Char} (h : isControl c = true) : Text.isBlank c = false := by
  simp only [isControl, Bool.or_eq_true, beq_iff_eq] at h
  rcases h with ((rfl | rfl) | rfl) | rfl <;> decide

theorem isDigit_of_isControl {c : Char} (h : isControl c = true) : isDigit c = false := by
  simp only [isControl, Bool.or_eq_true, beq_iff_eq] at h
  rcases h with ((rfl | rfl) | rfl) | rfl <;> decide

theorem isBlank_of_isDigit {c : Char} (h : isDigit c = true) : Text.isBlank c = false := by
  obtain ⟨hlow, hhigh⟩ := Handle.isDigit_iff.mp h
  simp [Text.isBlank]
  omega

theorem toHandle_digit (h : Handle) : toHandle h.digit = .ok h := by
  unfold toHandle
  rw [Handle.ofDigit?_digit]

theorem isDigit_digit (h : Handle) : isDigit h.digit = true := by
  revert h; decide

namespace Sees

variable {before : List Char} {w : WordPlace}

theorem start : Sees [] {} := ⟨rfl, rfl, by simp⟩

theorem push (h : Sees before w) (c : Char) : Sees (before ++ [c]) (w.push c) where
  fresh := (startsWord_concat before c).symm
  digit := by
    rw [digitBefore_concat, ← h.fresh, WordPlace.push]
    cases w.fresh <;> simp [Handle.isSome_ofDigit?]
  taken := by
    intro d hd
    simp only [WordPlace.push] at hd
    split at hd
    next => simp [Handle.ofDigit?_eq_some hd]
    next => cases hd

theorem of_control {c : Char} (hc : isControl c = true) (before text : List Char) :
    Sees (before ++ [c]) { text, fresh := false } where
  fresh := by rw [startsWord_concat, isBlank_of_isControl hc]
  digit := by rw [digitBefore_concat, isDigit_of_isControl hc]; rfl
  taken := by simp

theorem of_handle {c d : Char} (hc : isControl c = true) (hd : isDigit d = true)
    (before : List Char) : Sees (before ++ [c, d]) .afterOperator where
  fresh := by
    rw [List.append_cons, startsWord_concat, isBlank_of_isDigit hd]
    rfl
  digit := by
    rw [List.append_cons, digitBefore_concat, startsWord_concat, isBlank_of_isControl hc,
      Bool.and_false]
    rfl
  taken := by simp [WordPlace.afterOperator]

theorem beforeHandle_of_none (hdigit : digitBefore before = false) (h : Sees before w) :
    w.beforeHandle = w.text ∧ w.digit = none := by
  have hnone : w.digit = none := by
    rw [← Option.not_isSome_iff_eq_none, h.digit, hdigit]
    exact Bool.false_ne_true
  exact ⟨by simp [WordPlace.beforeHandle, hnone], hnone⟩

theorem takeHandle (hdigit : digitBefore before = true) (h : Sees before w) :
    ∃ source, w.digit = some source ∧ w.text ≠ [] ∧
      LookBack.takeHandle before w.text = .ok (source, w.beforeHandle) := by
  obtain ⟨source, hsource⟩ := Option.isSome_iff_exists.mp (h.digit.trans hdigit)
  obtain ⟨hbefore, front, htext⟩ := h.taken source hsource
  have hread := toHandle_digit source
  generalize source.digit = c at hbefore htext hread
  refine ⟨source, hsource, by simp [htext], ?_⟩
  have hleft : w.beforeHandle = front := by
    simp [WordPlace.beforeHandle, hsource, htext]
  simp [LookBack.takeHandle, htext, hbefore, hread, hleft, Except.map]

end Sees

/-- A digit that ends its word is a handle for the scanner that takes notes. -/
theorem digitAfter_eq (rest : List Char) : digitAfter rest = (handleAhead? rest).isSome := by
  cases rest with
  | nil => rfl
  | cons c cs =>
    rw [digitAfter, handleAhead?, ← Handle.isSome_ofDigit?]
    cases endsWord cs <;> simp

theorem duplicated?_eq (st : ParseState) (rest : List Char) :
    st.duplicated? rest = if awaitsHandle st then handleAhead? rest else none := by
  unfold ParseState.duplicated? awaitsHandle
  cases st.pending with
  | none => rfl
  | some p => cases h : p.append <;> simp [h]

theorem exists_of_duplicated? {st : ParseState} {rest : List Char} {h : Handle}
    (hdup : st.duplicated? rest = some h) :
    awaitsHandle st = true ∧ digitAfter rest = true ∧ rest.head? = some h.digit := by
  rw [duplicated?_eq] at hdup
  split at hdup
  next hawaits =>
    refine ⟨hawaits, by rw [digitAfter_eq, hdup]; rfl, ?_⟩
    cases rest with
    | nil => cases hdup
    | cons c cs =>
      rw [handleAhead?] at hdup
      split at hdup
      next => rw [List.head?_cons, Handle.ofDigit?_eq_some hdup]
      next => cases hdup
  next => cases hdup

theorem filter_of_duplicated?_eq_none {st : ParseState} {rest : List Char}
    (hdup : st.duplicated? rest = none) :
    (rest.head?.filter fun _ => digitAfter rest && awaitsHandle st) = none := by
  have hnot : (digitAfter rest && awaitsHandle st) = false := by
    rw [duplicated?_eq] at hdup
    rw [digitAfter_eq]
    split at hdup
    next => simp [hdup]
    next hnot => simp [hnot]
  simp [hnot]

section Read

variable {before : List Char} {w : WordPlace} (st : ParseState) (rest : List Char)

/-- Both scanners come from a place to the same text and state, and what the one has noted is what
the other sees from there. -/
def Agrees (before : List Char) (w : WordPlace) (st : ParseState) (c : Char) (rest : List Char) :
    Prop :=
  let r := st.read w c rest
  read st before w.text c rest = .ok ⟨r.used, r.place.text, r.state⟩ ∧
    Sees (before ++ c :: rest.take r.used) r.place

theorem Sees.operator {c : Char} (hc : isControl c = true) (before : List Char) :
    Sees (before ++ c :: rest.take (if rest.head? == some c then 1 else 0)) .afterOperator := by
  split
  next hdoubled =>
    have hhead : rest.head? = some c := by simpa using hdoubled
    obtain ⟨more, rfl⟩ := List.head?_eq_some_iff.mp hhead
    rw [List.append_cons]
    exact of_control hc (before ++ [c]) []
  next => exact of_control hc before []

theorem agrees_escaped {d : Char} (hd : isControl d = true) :
    Agrees before w st '^' (d :: rest) := by
  rw [Agrees, ParseState.read_escaped st w hd rest]
  refine ⟨by simp [read, hd, WordPlace.pushEscaped], ?_⟩
  rw [show before ++ '^' :: (d :: rest).take 1 = (before ++ ['^']) ++ [d] by simp]
  exact Sees.of_control hd _ _

theorem agrees_plain (h : Sees before w) {c : Char} (hc : isControl c = false)
    (hcaret : ¬(c = '^' ∧ rest.head?.any isControl)) : Agrees before w st c rest := by
  have hread : st.read w c rest = ⟨0, w.push c, st⟩ :=
    ParseState.read_plain st w rest hc fun hsame d hd =>
      Bool.eq_false_iff.mpr fun hcontrol => hcaret ⟨hsame, by simpa [hd] using hcontrol⟩
  rw [Agrees, hread]
  exact ⟨by simp only [read, if_neg hcaret, hc]; rfl, h.push c⟩

theorem agrees_output (h : Sees before w) : Agrees before w st '>' rest := by
  have hread : st.read w '>' rest = ⟨if rest.head? == some '>' then 1 else 0, .afterOperator,
      (st.addWord w.beforeHandle).openRedirection (w.digit.getD Handle.output)
        (rest.head? == some '>')⟩ := by simp [ParseState.read]
  rw [Agrees, hread]
  refine ⟨?_, Sees.operator rest (by decide) before⟩
  cases hdigit : digitBefore before with
  | false =>
    obtain ⟨htext, hnone⟩ := Sees.beforeHandle_of_none hdigit h
    simp [read, isControl, hdigit, htext, hnone, WordPlace.afterOperator]
  | true =>
    obtain ⟨source, hsource, hne, htake⟩ := Sees.takeHandle hdigit h
    simp [read, isControl, hdigit, hne, htake, hsource, WordPlace.afterOperator, Except.map]

theorem agrees_input : Agrees before w st '<' rest := by
  have hread : st.read w '<' rest =
      ⟨0, .afterOperator, (st.addWord w.text).openRedirection Handle.input false⟩ := by
    simp [ParseState.read]
  rw [Agrees, hread]
  exact ⟨by simp [read, isControl, WordPlace.afterOperator], Sees.of_control (by decide) before []⟩

theorem agrees_bar : Agrees before w st '|' rest := by
  have hsees := Sees.operator rest (c := '|') (by decide) before
  cases hdoubled : rest.head? == some '|' with
  | true =>
    have hread : st.read w '|' rest = ⟨1, .afterOperator, (st.addWord w.text).endStep .ifFail⟩ := by
      simp [ParseState.read, hdoubled]
    rw [hdoubled] at hsees
    rw [Agrees, hread]
    exact ⟨by simp [read, isControl, hdoubled, WordPlace.afterOperator], hsees⟩
  | false =>
    have hread : st.read w '|' rest = ⟨0, .afterOperator, (st.addWord w.text).endStep .pipe⟩ := by
      simp [ParseState.read, hdoubled]
    rw [hdoubled] at hsees
    rw [Agrees, hread]
    exact ⟨by simp [read, isControl, hdoubled, WordPlace.afterOperator], hsees⟩

theorem agrees_ampersand : Agrees before w st '&' rest := by
  have hsees := Sees.operator rest (c := '&') (by decide) before
  cases hdup : st.duplicated? rest with
  | some h =>
    obtain ⟨hawaits, hafter, hhead⟩ := exists_of_duplicated? hdup
    have hread : st.read w '&' rest =
        ⟨1, .afterOperator, (st.addWord w.text).connect { target := .handle h }⟩ := by
      simp [ParseState.read, hdup]
    have hto := toHandle_digit h
    have hdigit := isDigit_digit h
    generalize h.digit = d at hhead hto hdigit
    obtain ⟨more, rfl⟩ := List.head?_eq_some_iff.mp hhead
    rw [Agrees, hread]
    refine ⟨?_, Sees.of_handle (by decide) hdigit before⟩
    have hahead : ((d :: more).head?.filter fun _ => digitAfter (d :: more) && awaitsHandle st) =
        some d := by simp [hafter, hawaits]
    simp only [read, isControl, hahead, hto, WordPlace.afterOperator, Except.map]
    rfl
  | none =>
    have hnot := filter_of_duplicated?_eq_none hdup
    cases hdoubled : rest.head? == some '&' with
    | true =>
      have hread : st.read w '&' rest =
          ⟨1, .afterOperator, (st.addWord w.text).endStep .ifPass⟩ := by
        simp [ParseState.read, hdup, hdoubled]
      rw [hdoubled] at hsees
      rw [Agrees, hread]
      exact ⟨by simp [read, isControl, hnot, hdoubled, WordPlace.afterOperator], hsees⟩
    | false =>
      have hread : st.read w '&' rest =
          ⟨0, .afterOperator, (st.addWord w.text).endStep .always⟩ := by
        simp [ParseState.read, hdup, hdoubled]
      rw [hdoubled] at hsees
      rw [Agrees, hread]
      exact ⟨by simp [read, isControl, hnot, hdoubled, WordPlace.afterOperator], hsees⟩

theorem agrees_read (h : Sees before w) (c : Char) : Agrees before w st c rest := by
  by_cases hcaret : c = '^' ∧ rest.head?.any isControl
  · obtain ⟨rfl, hhead⟩ := hcaret
    cases rest with
    | nil => cases hhead
    | cons d ds => exact agrees_escaped st ds (by simpa using hhead)
  · cases hc : isControl c with
    | false => exact agrees_plain st rest h hc hcaret
    | true =>
      simp only [isControl, Bool.or_eq_true, beq_iff_eq] at hc
      rcases hc with ((rfl | rfl) | rfl) | rfl
      · exact agrees_output st rest h
      · exact agrees_input st rest
      · exact agrees_bar st rest
      · exact agrees_ampersand st rest

end Read

/-- Looking back never fails, and it reads what the notes read. -/
theorem scanFrom_eq (skip : Nat) (cs : List Char) {before : List Char} {w : WordPlace}
    (h : Sees (before ++ cs.take skip) w) (st : ParseState) :
    scanFrom skip before w.text cs st = .ok (ParseState.scanFrom skip cs w st) := by
  induction cs generalizing skip before w st with
  | nil => cases skip <;> rfl
  | cons c cs ih =>
    cases skip with
    | zero =>
      have hsees : Sees before w := by simpa using h
      obtain ⟨hread, hnext⟩ := agrees_read st cs hsees c
      rw [scanFrom, hread, ParseState.scanFrom]
      exact ih _ (by simpa using hnext) _
    | succ skip =>
      rw [scanFrom, ParseState.scanFrom]
      exact ih skip (by simpa using h) st

theorem scanAll_eq (words : List String) (st : ParseState) :
    scanAll st words = .ok (words.foldl ParseState.scanWord st) := by
  induction words generalizing st with
  | nil => rfl
  | cons word words ih =>
    have hword : scanWord st word = .ok (st.scanWord word) :=
      @scanFrom_eq 0 word.toList [] {} (by simpa using Sees.start) st
    rw [scanAll, hword, List.foldl_cons]
    exact ih _

theorem parseSlice_eq (words : List String) (first : Int) (last : Option Int) :
    parseSlice words first last = .ok (Chain.parseSlice words first last) := by
  rw [parseSlice, scanAll_eq]
  rfl

end LookBack

/-- A step that can be run and written without looking for more: its arguments are words in the form
in which they are written. -/
structure Step.WellFormed (s : Step) : Prop where
  path : s.path ≠ ""
  slots : ∀ h : Handle, (s.slot h).WellFormed
  args : ∃ ws : List String, (∀ w ∈ ws, w ≠ "") ∧
    s.args = String.intercalate " " (ws.map Quoting.quoteIfNeeded)

theorem Outline.WellFormed.step {o : Outline} (h : o.WellFormed) : o.step.WellFormed :=
  ⟨h.path, h.slots, o.arguments, h.arguments, rfl⟩

namespace Chain

/-- Whatever words a chain is read from, nothing goes wrong on the way, also for a scanner that has
to look back and to take back; all its steps are well formed, and all but the last have an
operator. -/
theorem parseSlice_wellFormed (words : List String) (first : Int) (last : Option Int) :
    LookBack.parseSlice words first last = .ok (parseSlice words first last) ∧
      (∀ s ∈ (parseSlice words first last).steps, s.WellFormed) ∧
      ∀ s ∈ (parseSlice words first last).steps.dropLast, s.continuation ≠ .terminate := by
  obtain ⟨slice, hslice⟩ : ∃ slice, parseSlice words first last = parse slice := ⟨_, rfl⟩
  have hspelled := spelled_outline slice
  refine ⟨LookBack.parseSlice_eq words first last, ?_, ?_⟩
  · intro s hs
    rw [hslice, parse] at hs
    obtain ⟨o, ho, rfl⟩ := List.mem_map.mp hs
    exact (hspelled.wellFormed o ho).step
  · intro s hs
    rw [hslice, parse, ← List.map_dropLast] at hs
    obtain ⟨o, ho, rfl⟩ := List.mem_map.mp hs
    exact hspelled.operator o ho

end Chain
end FileSweep
