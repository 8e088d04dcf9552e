import FileSweep.Proofs.LookBack

/-! Operators written onto the word before them. What reading does with a control character is seen
from the state in which the word before it is not yet taken. For all but one of them this makes no
difference: the word is taken and then the operator is read as if it stood alone. The one is an
ampersand with a digit, which is taken for the handle that a redirection is connected to while the
word is still to become its target; then both are dropped. -/
namespace FileSweep

open Quoting

namespace WordPlace

def behindText (u : List Char) : WordPlace := u.foldl push {}

theorem text_foldl_push (u : List Char) (w : WordPlace) : (u.foldl push w).text = w.text ++ u := by
  induction u generalizing w with
  | nil => simp
  | cons c u ih => rw [List.foldl_cons, ih, ParseState.push_text, List.append_assoc, List.singleton_append]

theorem sees_foldl_push (u : List Char) {before : List Char} {w : WordPlace}
    (h : LookBack.Sees before w) : LookBack.Sees (before ++ u) (u.foldl push w) := by
  induction u generalizing before w with
  | nil => simpa using h
  | cons c u ih =>
    rw [List.foldl_cons, List.append_cons]
    exact ih (h.push c)

theorem text_behindText (u : List Char) : (behindText u).text = u := text_foldl_push u {}

theorem sees_behindText (u : List Char) : LookBack.Sees u (behindText u) :=
  sees_foldl_push u LookBack.Sees.start

end WordPlace

namespace ParseState

variable (st : ParseState)

theorem scanFrom_text {u : List Char} (hplain : ∀ c ∈ u, isControl c = false)
    (hcaret : u.getLast? ≠ some '^') (r : List Char) (w : WordPlace) :
    scanFrom 0 (u ++ r) w st = scanFrom 0 r (u.foldl WordPlace.push w) st := by
  induction u generalizing w with
  | nil => rfl
  | cons c u ih =>
    have hnext : c = '^' → ∀ d, (u ++ r).head? = some d → isControl d = false := by
      intro hc d hd
      cases u with
      | nil => exact absurd (by rw [hc]; rfl) hcaret
      | cons e u =>
        obtain rfl : e = d := by simpa using hd
        exact hplain e (by simp)
    have hlast : u.getLast? ≠ some '^' := by
      cases u with
      | nil => simp
      | cons e u => simpa using hcaret
    rw [List.cons_append, scanFrom, read_plain st w _ (hplain c (by simp)) hnext]
    exact ih (fun d hd => hplain d (List.mem_cons_of_mem c hd)) hlast _

theorem scanWord_text {word : String} (hplain : ∀ c ∈ word.toList, isControl c = false) :
    st.scanWord word = st.addWord word.toList := by
  rw [← scanWord_escapeControls st word, escapeControls_of_plain hplain]

theorem pending_addWord {u : List Char} (hne : u ≠ []) :
    (st.addWord u).pending = if st.draft.isSome then none else st.pending := by
  have hempty : u.isEmpty = false := by simpa using hne
  cases hd : st.draft with
  | none => simp [addWord, hempty, hd]
  | some d => cases hp : st.pending <;> simp [addWord, hempty, hd, hp, connect]

theorem awaitsHandle_addWord {u : List Char} (hne : u ≠ []) :
    LookBack.awaitsHandle (st.addWord u) = (!st.draft.isSome && LookBack.awaitsHandle st) := by
  rw [LookBack.awaitsHandle, pending_addWord st hne]
  cases hd : st.draft <;> simp [LookBack.awaitsHandle]

/-- Whether a text that is written onto a word begins with an ampersand and a digit that are taken
for a handle, while the word is the target of the redirection that the handle would be for. -/
def swallows (r : List Char) : Bool :=
  st.draft.isSome && LookBack.awaitsHandle st && r.head? == some '&' && LookBack.digitAfter r.tail

variable {u : List Char}

theorem read_behindText (hne : u ≠ []) {c : Char} (hc : isControl c = true) {rest : List Char}
    (hdigit : ¬(c = '>' ∧ LookBack.digitBefore u = true)) (hkept : st.swallows (c :: rest) = false) :
    st.read (.behindText u) c rest = (st.addWord u).read {} c rest := by
  have hsees := WordPlace.sees_behindText u
  have htext := WordPlace.text_behindText u
  simp only [isControl, Bool.or_eq_true, beq_iff_eq] at hc
  rcases hc with ((rfl | rfl) | rfl) | rfl
  · obtain ⟨hbefore, hnone⟩ :=
      LookBack.Sees.beforeHandle_of_none (by simpa using hdigit) hsees
    have hempty : ({} : WordPlace).beforeHandle = [] := rfl
    simp [read, hbefore, hnone, htext, hempty]
  · simp [read, htext]
  · simp [read, htext]
  · have hsame : (st.addWord u).duplicated? rest = st.duplicated? rest := by
      rw [LookBack.duplicated?_eq, LookBack.duplicated?_eq, awaitsHandle_addWord st hne]
      cases hd : st.draft with
      | none => simp
      | some d =>
        cases hawaits : LookBack.awaitsHandle st with
        | false => simp
        | true =>
          have hafter : LookBack.digitAfter rest = false := by simpa [swallows, hd, hawaits] using hkept
          rw [LookBack.digitAfter_eq, Option.isSome_eq_false_iff, Option.isNone_iff_eq_none] at hafter
          simp [hafter]
    simp [read, htext, hsame]

theorem scanFrom_glued (hne : u ≠ []) {r : List Char} (hcontrol : r.head?.any isControl = true)
    (hdigit : ¬(r.head? = some '>' ∧ LookBack.digitBefore u = true)) (hkept : st.swallows r = false) :
    scanFrom 0 r (.behindText u) st = scanFrom 0 r {} (st.addWord u) := by
  cases r with
  | nil => cases hcontrol
  | cons c rest =>
    have hread := read_behindText st hne (by simpa using hcontrol) (by simpa using hdigit) hkept
    rw [scanFrom, scanFrom, hread]

theorem connect_of_none {st : ParseState} (hp : st.pending = none) (r : Redirection) :
    st.connect r = st := by
  obtain ⟨steps, draft, words, pending⟩ := st
  obtain rfl : pending = none := hp
  cases draft <;> rfl

/-- Whether an operator or nothing stands before a word that begins with a blank does not matter. -/
theorem scanFrom_afterOperator {rest : List Char} (hends : endsWord rest = true) :
    scanFrom 0 rest .afterOperator st = scanFrom 0 rest {} st := by
  cases rest with
  | nil => rfl
  | cons b rest =>
    have hblank : Text.isBlank b = true := hends
    have hplain : isControl b = false := by
      cases hc : isControl b with
      | false => rfl
      | true => exact absurd hblank (by simp [LookBack.isBlank_of_isControl hc])
    have hcaret : b ≠ '^' := by
      rintro rfl
      exact absurd hblank (by decide)
    have hdigit : Handle.ofDigit? b = none := by
      rw [← Option.not_isSome_iff_eq_none, Handle.isSome_ofDigit?]
      intro hd
      exact absurd hblank (by simp [LookBack.isBlank_of_isDigit hd])
    have hread := fun w => read_plain st w rest hplain fun h => absurd h hcaret
    have hpush : WordPlace.afterOperator.push b = ({} : WordPlace).push b := by
      simp [WordPlace.push, WordPlace.afterOperator, hdigit]
    rw [scanFrom, scanFrom, hread, hread, hpush]

/-- Where the ampersand and the digit are swallowed, reading goes on behind them as if they were not
there. -/
theorem scanFrom_swallowed (hne : u ≠ []) {r : List Char} (hswallows : st.swallows r = true) :
    scanFrom 0 r (.behindText u) st = scanFrom 0 (r.drop 2) {} (st.addWord u) := by
  simp only [swallows, Bool.and_eq_true, beq_iff_eq] at hswallows
  obtain ⟨⟨⟨hdraft, hawaits⟩, hhead⟩, hafter⟩ := hswallows
  obtain ⟨rest, rfl⟩ := List.head?_eq_some_iff.mp hhead
  cases rest with
  | nil => cases hafter
  | cons d rest =>
    have hafter' := hafter
    rw [List.tail_cons, LookBack.digitAfter_eq, Option.isSome_iff_exists] at hafter'
    obtain ⟨h, hahead⟩ := hafter'
    have hends : endsWord rest = true := (Bool.and_eq_true_iff.mp hafter).2
    have hdup : st.duplicated? (d :: rest) = some h := by
      rw [LookBack.duplicated?_eq, hawaits, if_pos rfl, hahead]
    have hread : st.read (.behindText u) '&' (d :: rest) = ⟨1, .afterOperator, st.addWord u⟩ := by
      have hnone : (st.addWord u).pending = none := by rw [pending_addWord st hne, if_pos hdraft]
      simp [read, hdup, WordPlace.text_behindText, connect_of_none hnone]
    rw [scanFrom, hread]
    exact scanFrom_afterOperator _ hends

end ParseState

namespace Chain

open ParseState

/-- A word with an operator written onto it spells what the word and the operator spell apart, and
nothing of it is lost, but for one case: if a redirection of the step begun waits for the word, an
ampersand and a digit behind the word are taken for its handle, and both are lost. -/
theorem parse_glued (pre post : List String) {u r : String} (hne : u ≠ "")
    (hplain : ∀ c ∈ u.toList, isControl c = false) (hcaret : u.toList.getLast? ≠ some '^')
    (hcontrol : r.toList.head?.any isControl = true)
    (hdigit : ¬(r.toList.head? = some '>' ∧ LookBack.digitBefore u.toList = true)) :
    ((scanAll pre).swallows r.toList = false →
        parse (pre ++ [u ++ r] ++ post) = parse (pre ++ [u, r] ++ post)) ∧
      ((scanAll pre).swallows r.toList = true →
        parse (pre ++ [u ++ r] ++ post) = parse (pre ++ [u, String.ofList (r.toList.drop 2)] ++ post)) := by
  have hnil : u.toList ≠ [] := by simpa using hne
  -- What comes before and behind is read alike, so it is enough that the states in between agree.
  have hword : ∀ v : String, scanFrom 0 r.toList (.behindText u.toList) (scanAll pre) =
      scanFrom 0 v.toList {} ((scanAll pre).addWord u.toList) →
      parse (pre ++ [u ++ r] ++ post) = parse (pre ++ [u, v] ++ post) := by
    intro v hv
    have hglued : (scanAll pre).scanWord (u ++ r) = ((scanAll pre).scanWord u).scanWord v := by
      rw [scanWord_text _ hplain, scanWord, scanWord, String.toList_append,
        scanFrom_text _ hplain hcaret]
      exact hv
    have hscan : scanAll (pre ++ [u ++ r] ++ post) = scanAll (pre ++ [u, v] ++ post) := by
      simp only [scanAll, List.foldl_append, List.foldl_cons, List.foldl_nil]
      rw [← scanAll, hglued]
    rw [parse, parse, outline, outline, hscan]
  refine ⟨fun hkept => hword r (scanFrom_glued _ hnil hcontrol hdigit hkept), fun hswallows => ?_⟩
  refine hword _ ?_
  rw [String.toList_ofList]
  exact scanFrom_swallowed _ hnil hswallows

/-- A digit that does not end its word is no handle, also behind the target of a redirection. -/
theorem parse_glued_behind_target :
    let pre := ["p", "2>"]
    let u := "out"
    let r := "&1x&&q"
    u ≠ "" ∧ (∀ c ∈ u.toList, isControl c = false) ∧ u.toList.getLast? ≠ some '^' ∧
      r.toList.head?.any isControl = true ∧
      ¬(r.toList.head? = some '>' ∧ LookBack.digitBefore u.toList = true) ∧
      (scanAll pre).swallows r.toList = false ∧
      parse (pre ++ [u ++ r] ++ ["w"]) = parse (pre ++ [u, r] ++ ["w"]) ∧
      (parse (pre ++ [u ++ r] ++ ["w"])).steps.map Step.path = ["p", "1x", "q"] := by
  intro pre u r
  have hne : u ≠ "" := by decide
  have hplain : ∀ c ∈ u.toList, isControl c = false := by
    have hall : u.toList.all (fun c => !isControl c) = true := by decide +kernel
    simpa using hall
  have hcaret : u.toList.getLast? ≠ some '^' := by decide +kernel
  have hcontrol : r.toList.head?.any isControl = true := by decide +kernel
  have hdigit : ¬(r.toList.head? = some '>' ∧ LookBack.digitBefore u.toList = true) := by
    decide +kernel
  have hkept : (scanAll pre).swallows r.toList = false := by decide +kernel
  exact ⟨hne, hplain, hcaret, hcontrol, hdigit, hkept,
    (parse_glued pre ["w"] hne hplain hcaret hcontrol hdigit).1 hkept, by decide +kernel⟩

/-- An operator and a word are lost because no blank stands before them: the second command is not
run. -/
theorem parse_glued_loses_step :
    let pre := ["p", ">"]
    let u := "file"
    let r := "&1"
    u ≠ "" ∧ (∀ c ∈ u.toList, isControl c = false) ∧ u.toList.getLast? ≠ some '^' ∧
      r.toList.head?.any isControl = true ∧ r.toList.head? ≠ some '>' ∧
      (parse (pre ++ [u ++ r] ++ [])).steps.map Step.path = ["p"] ∧
      (parse (pre ++ [u, r] ++ [])).steps.map Step.path = ["p", "1"] ∧
      parse (pre ++ [u ++ r] ++ []) ≠ parse (pre ++ [u, r] ++ []) := by
  intro pre u r
  have hplain : ∀ c ∈ u.toList, isControl c = false := by
    have hall : u.toList.all (fun c => !isControl c) = true := by decide +kernel
    simpa using hall
  exact ⟨by decide, hplain, by decide +kernel⟩

end Chain
end FileSweep
