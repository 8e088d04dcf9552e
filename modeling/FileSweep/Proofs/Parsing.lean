import FileSweep.Proofs.Tokens

/-! What holds in every state of the parser. A property kept by the four things that reading
can do, taking a word, opening a redirection, settling it and ending a step, is kept by every
word and so by a whole command. In particular every step that comes out is well formed, and
only the last one can lack an operator. -/
namespace FileSweep
namespace ParseState

open Quoting

/-- A property of states that reading keeps. -/
structure Kept (P : ParseState → Prop) : Prop where
  word : ∀ st w, P st → P (st.addWord w)
  redirect : ∀ st h a, P st → P (st.openRedirection h a)
  duplicate : ∀ st h, P st → P (st.connect { target := .handle h })
  finish : ∀ st k, k ≠ .terminate → P st → P (st.endStep k)

namespace Kept

variable {P : ParseState → Prop}

theorem read (hP : Kept P) {st : ParseState} (h : P st) (w : WordPlace) (c : Char)
    (rest : List Char) : P (st.read w c rest).state := by
  unfold ParseState.read
  split
  · split
    · split <;> exact h
    · exact h
  · split
    · exact hP.redirect _ _ _ (hP.word _ _ h)
    · split
      · exact hP.redirect _ _ _ (hP.word _ _ h)
      · split
        · split
          · exact hP.finish _ _ (by decide) (hP.word _ _ h)
          · exact hP.finish _ _ (by decide) (hP.word _ _ h)
        · split
          · split
            · exact hP.duplicate _ _ (hP.word _ _ h)
            · split
              · exact hP.finish _ _ (by decide) (hP.word _ _ h)
              · exact hP.finish _ _ (by decide) (hP.word _ _ h)
          · exact h

theorem scanFrom (hP : Kept P) (skip : Nat) (cs : List Char) (w : WordPlace) {st : ParseState}
    (h : P st) : P (scanFrom skip cs w st) := by
  fun_induction ParseState.scanFrom skip cs w st with
  | case1 skip w st => exact hP.word st w.text h
  | case2 skip c cs w st ih => exact ih h
  | case3 c cs w st r ih => exact ih (hP.read h w c cs)

theorem scan (hP : Kept P) {st : ParseState} (h : P st) (words : List String) :
    P (words.foldl scanWord st) := by
  induction words generalizing st with
  | nil => exact h
  | cons word words ih => exact ih (hP.scanFrom 0 word.toList {} h)

theorem scanAll (hP : Kept P) (words : List String) (h : P {}) : P (scanAll words) := hP.scan h words

end Kept

/-- Every finished step is well formed and has an operator, and so far the step begun
is well formed too. -/
structure Sound (st : ParseState) : Prop where
  steps : ∀ o ∈ st.steps, o.WellFormed ∧ o.continuation ≠ .terminate
  path : ∀ d ∈ st.draft, d.path ≠ ""
  slots : ∀ d ∈ st.draft, ∀ h : Handle, (d.slots.slot h).WellFormed
  words : ∀ w ∈ st.words, w ≠ ""

namespace Sound

theorem empty_wellFormed (h : Handle) : (Slots.empty.slot h).WellFormed := by
  rw [Slots.slot_empty]
  exact ⟨rfl, rfl⟩

theorem connect {st : ParseState} (hst : st.Sound) {r : Redirection} (hr : r.WellFormed) :
    (st.connect r).Sound := by
  unfold ParseState.connect
  split
  next d p hd hp =>
    refine ⟨hst.steps, ?_, ?_, hst.words⟩
    · intro e he
      cases he
      exact hst.path d hd
    · intro e he h
      cases he
      simp only
      split
      · exact hst.slots d hd h
      · rw [Slots.slot_fill]
        split
        · exact hr
        · exact hst.slots d hd h
  next => exact ⟨hst.steps, hst.path, hst.slots, hst.words⟩

theorem addWord {st : ParseState} (hst : st.Sound) (w : List Char) : (st.addWord w).Sound := by
  unfold ParseState.addWord
  split
  next => exact hst
  next hw =>
    have hne : String.ofList w ≠ "" := by
      intro h
      have hnil := congrArg String.toList h
      simp only [String.toList_ofList, String.toList_empty] at hnil
      exact hw (by simp [hnil])
    simp only
    split
    next hd =>
      refine ⟨hst.steps, ?_, ?_, hst.words⟩
      · intro e he; cases he; exact hne
      · intro e he h; cases he; exact empty_wellFormed h
    next d hd hp =>
      refine ⟨hst.steps, hst.path, hst.slots, ?_⟩
      intro v hv
      rcases List.mem_append.mp hv with hv | hv
      · exact hst.words v hv
      · rw [List.mem_singleton.mp hv]; exact hne
    next d p hd hp =>
      apply hst.connect
      intro q hq
      by_cases hname : isDiscardName (String.ofList w) = true
      · simp [hname] at hq
      · have hq' : String.ofList w = q := by simpa [hname] using hq
        exact ⟨hq' ▸ hne, hq' ▸ by simpa using hname⟩

theorem mem_endStep {st : ParseState} (hst : st.Sound) (k : Continuation) {o : Outline}
    (ho : o ∈ (st.endStep k).steps) : o ∈ st.steps ∨ o.WellFormed ∧ o.continuation = k := by
  unfold ParseState.endStep at ho
  split at ho
  next => exact Or.inl ho
  next d hd =>
    rcases List.mem_append.mp ho with ho | ho
    · exact Or.inl ho
    · right
      rw [List.mem_singleton.mp ho]
      exact ⟨⟨hst.path d hd, hst.words, hst.slots d hd⟩, rfl⟩

theorem endStep {st : ParseState} (hst : st.Sound) {k : Continuation} (hk : k ≠ .terminate) :
    (st.endStep k).Sound := by
  have hsteps : ∀ o ∈ (st.endStep k).steps, o.WellFormed ∧ o.continuation ≠ .terminate := by
    intro o ho
    rcases hst.mem_endStep k ho with ho | ⟨hwf, hcont⟩
    · exact hst.steps o ho
    · exact ⟨hwf, hcont ▸ hk⟩
  unfold ParseState.endStep at hsteps ⊢
  split at hsteps <;> exact ⟨hsteps, by simp, by simp, by simp⟩

theorem kept : Kept Sound where
  word _ w h := h.addWord w
  redirect _ _ _ h := ⟨h.steps, h.path, h.slots, h.words⟩
  duplicate _ _ h := h.connect ⟨rfl, rfl⟩
  finish _ _ hk h := h.endStep hk

theorem scanAll (words : List String) : (scanAll words).Sound :=
  kept.scanAll words ⟨by simp, by simp, by simp, by simp⟩

end Sound
end ParseState

namespace Chain

/-- A list of steps as a command line can spell it: only the last can lack an operator. -/
structure Spelled (os : List Outline) : Prop where
  wellFormed : ∀ o ∈ os, o.WellFormed
  operator : ∀ o ∈ os.dropLast, o.continuation ≠ .terminate

theorem Spelled.tail {o : Outline} {os : List Outline} (h : Spelled (o :: os)) : Spelled os := by
  refine ⟨fun q hq => h.wellFormed q (List.mem_cons_of_mem o hq), ?_⟩
  intro q hq
  cases os with
  | nil => simp at hq
  | cons p os =>
    apply h.operator q
    rw [List.dropLast_cons_cons]
    exact List.mem_cons_of_mem o hq

theorem spelled_outline (words : List String) : Spelled (outline words) := by
  have hst := ParseState.Sound.scanAll words
  refine ⟨?_, ?_⟩
  · intro o ho
    rcases hst.mem_endStep .terminate ho with ho | ⟨hwf, _⟩
    · exact (hst.steps o ho).1
    · exact hwf
  · intro o ho
    unfold outline ParseState.endStep at ho
    split at ho
    next => exact (hst.steps o (List.dropLast_subset _ ho)).2
    next => exact (hst.steps o (by simpa using ho)).2

end Chain
end FileSweep
