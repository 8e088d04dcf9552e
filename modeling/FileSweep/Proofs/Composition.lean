import FileSweep.Proofs.Parsing
import Mathlib.Data.List.ModifyLast

/-! Commands joined by an operator. Reading never looks at the steps that are finished, so steps set
in front of a state stay there; and an operator leaves nothing open. So a command has, at any
operator in it, the steps of what is before the operator and then the steps of what is after it,
whatever is left open before it. -/
namespace FileSweep
namespace ParseState

variable (st : ParseState) (done : List Outline)

/-- The state with other finished steps in front of its own. -/
def behind : ParseState := { st with steps := done ++ st.steps }

@[simp] theorem behind_draft : (st.behind done).draft = st.draft := rfl
@[simp] theorem behind_words : (st.behind done).words = st.words := rfl
@[simp] theorem behind_pending : (st.behind done).pending = st.pending := rfl
@[simp] theorem behind_steps : (st.behind done).steps = done ++ st.steps := rfl

theorem connect_behind (r : Redirection) :
    (st.behind done).connect r = (st.connect r).behind done := by
  simp only [connect, behind_draft, behind_pending]
  split <;> rfl

theorem addWord_behind (w : List Char) : (st.behind done).addWord w = (st.addWord w).behind done := by
  simp only [addWord, behind_draft, behind_pending, connect_behind]
  split
  · rfl
  · split <;> rfl

theorem openRedirection_behind (source : Handle) (append : Bool) :
    (st.behind done).openRedirection source append =
      (st.openRedirection source append).behind done := rfl

theorem endStep_behind (k : Continuation) :
    (st.behind done).endStep k = (st.endStep k).behind done := by
  simp only [endStep, behind_draft, behind_words, behind_steps]
  split
  · rfl
  · simp [behind]

theorem duplicated?_behind (rest : List Char) :
    (st.behind done).duplicated? rest = st.duplicated? rest := rfl

/-- What a character leads to does not hang on the steps that are finished. -/
theorem read_behind (w : WordPlace) (c : Char) (rest : List Char) :
    (st.behind done).read w c rest =
      { st.read w c rest with state := (st.read w c rest).state.behind done } := by
  simp only [read, addWord_behind, openRedirection_behind, endStep_behind, connect_behind,
    duplicated?_behind]
  split
  · split
    · split <;> rfl
    · rfl
  · split
    · rfl
    · split
      · rfl
      · split
        · split <;> rfl
        · split
          · split
            · rfl
            · split <;> rfl
          · rfl

theorem scanFrom_behind (skip : Nat) (cs : List Char) (w : WordPlace) :
    scanFrom skip cs w (st.behind done) = (scanFrom skip cs w st).behind done := by
  fun_induction scanFrom skip cs w st with
  | case1 skip w st => exact addWord_behind st done w.text
  | case2 skip c cs w st ih => exact ih
  | case3 c cs w st r ih => rw [scanFrom, read_behind]; exact ih

theorem scan_behind (words : List String) :
    words.foldl scanWord (st.behind done) = (words.foldl scanWord st).behind done := by
  induction words generalizing st with
  | nil => rfl
  | cons word words ih =>
    rw [List.foldl_cons, List.foldl_cons, ← ih, scanWord, scanFrom_behind, ← scanWord]

theorem endStep_eq_behind (k : Continuation) :
    st.endStep k = ({} : ParseState).behind (st.endStep k).steps := by
  unfold endStep
  split <;> simp [behind]

end ParseState

/-- The step with an operator behind it. An operator that it has already stays. -/
def Step.linked (k : Continuation) (s : Step) : Step :=
  if s.continuation = .terminate then { s with continuation := k } else s

namespace Chain

/-- What an operator makes of the steps before it: it links the last one, unless that has ended
before. -/
theorem endStep_scanAll (words : List String) (k : Continuation) :
    ((ParseState.scanAll words).endStep k).steps.map Outline.step =
      (parse words).steps.modifyLast (Step.linked k) := by
  have hsound := ParseState.Sound.scanAll words
  unfold parse outline ParseState.endStep
  cases (ParseState.scanAll words).draft with
  | some d =>
    simp only [List.map_append, List.map_cons, List.map_nil, List.modifyLast_concat]
    rfl
  | none =>
    rcases List.eq_nil_or_concat (ParseState.scanAll words).steps with hnil | ⟨front, last, hlast⟩
    · simp only [hnil]
      rfl
    · rw [List.concat_eq_append] at hlast
      have hended : last.step.continuation ≠ .terminate := (hsound.steps last (by simp [hlast])).2
      simp only [hlast, List.map_append, List.map_cons, List.map_nil, List.modifyLast_concat,
        Step.linked, if_neg hended]

theorem outline_operator (xs ys : List String) {k : Continuation} (hk : k ≠ .terminate) :
    outline (xs ++ k.symbol :: ys) = ((ParseState.scanAll xs).endStep k).steps ++ outline ys := by
  let done := ((ParseState.scanAll xs).endStep k).steps
  have hscan : ParseState.scanAll (xs ++ k.symbol :: ys) = (ParseState.scanAll ys).behind done := by
    calc ParseState.scanAll (xs ++ k.symbol :: ys)
        = ys.foldl ParseState.scanWord ((ParseState.scanAll xs).endStep k) := by
          rw [ParseState.scanAll, List.foldl_append, List.foldl_cons, ← ParseState.scanAll,
            ParseState.scanWord_operator _ hk]
      _ = ys.foldl ParseState.scanWord (({} : ParseState).behind done) := by
          rw [ParseState.endStep_eq_behind]
      _ = (ParseState.scanAll ys).behind done := ParseState.scan_behind {} done ys
  rw [outline, hscan, ParseState.endStep_behind, ParseState.behind_steps, ← outline]

/-- Two commands joined by an operator are the steps of the one, the last of them linked, and then
the steps of the other. Nothing that the first leaves open, a redirection, a word or an argument,
reaches the second. -/
theorem parse_operator (xs ys : List String) {k : Continuation} (hk : k ≠ .terminate) :
    (parse (xs ++ k.symbol :: ys)).steps =
      (parse xs).steps.modifyLast (Step.linked k) ++ (parse ys).steps := by
  have hsteps : (parse (xs ++ k.symbol :: ys)).steps =
      (outline (xs ++ k.symbol :: ys)).map Outline.step := rfl
  rw [hsteps, outline_operator xs ys hk, List.map_append, endStep_scanAll]
  rfl

/-- A redirection that has no target yet is lost at the operator: the ampersand after it connects
nothing, and the word after it is a path. -/
theorem parse_operator_after_open_redirection :
    Continuation.pipe ≠ .terminate ∧
      (parse (["a", "x y", "2>"] ++ "|" :: ["&1", "b", "1>c"])).steps =
        (parse ["a", "x y", "2>"]).steps.modifyLast (Step.linked .pipe) ++
          (parse ["&1", "b", "1>c"]).steps ∧
      (parse ["a", "x y", "2>", "|", "&1", "b", "1>c"]).steps.map Step.path = ["a", "1"] :=
  ⟨by decide, parse_operator ["a", "x y", "2>"] ["&1", "b", "1>c"] (k := .pipe) (by decide),
    by decide +kernel⟩

end Chain
end FileSweep
