import FileSweep.Schedule.Calls
import Mathlib.Data.List.Induction
import Mathlib.Data.List.Infix

/-! A gate opens once. Whatever calls reach it and in whatever order, the first call after which
the total is known and as many files are counted opens it; no other call does, and nothing shuts
it again. -/
namespace FileSweep
namespace Gate

variable {g : Gate} {calls : List Call}

theorem tryRelease_released (g : Gate) :
    g.tryRelease.1.released = true ↔
      g.released = true ∨ g.total = some (g.completed : Int) := by
  unfold tryRelease
  by_cases hr : g.released = true
  · simp [hr]
  · by_cases ht : g.total = some (g.completed : Int)
    · simp [hr, ht]
    · simp [hr, ht]

theorem tryRelease_opened (g : Gate) :
    g.tryRelease.1.released.toNat = g.released.toNat + g.tryRelease.2.toNat := by
  unfold tryRelease
  split
  next h => simp [h.1]
  next => simp

theorem setTotal?_eq_some {total : Int} {call : Gate × Bool}
    (h : g.setTotal? total = some call) :
    g.total = none ∧ call = tryRelease { g with total := some total } := by
  unfold setTotal? at h
  split at h
  next => simp at h
  next ht => exact ⟨ht, (Option.some.inj h).symm⟩

/-- What can become of a call: a total is refused where there is one, and every other call is
noted before the gate is tried. -/
theorem call_cases (g : Gate) (c : Call) :
    (c.total?.isSome ∧ g.total.isSome ∧ g.call c = (g, none)) ∨
      ∃ noted : Gate, noted.released = g.released ∧ noted.total = g.total.or c.total? ∧
        noted.completed = g.completed + [c].count .mark ∧
        g.call c = (noted.tryRelease.1, some noted.tryRelease.2) := by
  cases c with
  | mark => exact Or.inr ⟨{ g with completed := g.completed + 1 }, rfl, by simp [Call.total?], rfl, rfl⟩
  | setTotal total =>
    cases htotal : g.total with
    | some n => exact Or.inl ⟨rfl, rfl, by simp [call, setTotal?, htotal]⟩
    | none =>
      refine Or.inr ⟨{ g with total := some total }, rfl, rfl, rfl, ?_⟩
      simp [call, setTotal?, htotal]

theorem call_opened (g : Gate) (c : Call) :
    (g.call c).1.released.toNat = g.released.toNat + [(g.call c).2].count (some true) := by
  obtain ⟨-, -, hcall⟩ | ⟨noted, hreleased, -, -, hcall⟩ := call_cases g c
  · simp [hcall]
  · rw [hcall, tryRelease_opened, hreleased]
    cases noted.tryRelease.2 <;> rfl

theorem call_opens_iff (g : Gate) (c : Call) :
    (g.call c).2 = some true ↔ (g.call c).1.released = true ∧ g.released = false := by
  obtain ⟨-, -, hcall⟩ | ⟨noted, hreleased, -, -, hcall⟩ := call_cases g c
  · simp [hcall]
  · rw [hcall, ← hreleased]
    unfold tryRelease
    split
    next h => simp [h.1]
    next => simp

theorem call_refuses_iff (g : Gate) (c : Call) :
    (g.call c).2 = none ↔ c.total?.isSome ∧ g.total.isSome := by
  cases c with
  | mark => simp [call, Call.total?]
  | setTotal total => cases h : g.total <;> simp [call, setTotal?, Call.total?, h]

theorem count_answers (calls : List Call) :
    (answers {} calls).count (some true) = (after {} calls).released.toNat := by
  induction calls using List.reverseRecOn with
  | nil => rfl
  | append_singleton calls c ih => rw [answers_concat, List.count_append, after_concat, call_opened, ih]

/-- What holds of a gate after a sequence of calls. -/
structure Follows (calls : List Call) (g : Gate) : Prop where
  total : g.total = published? calls
  completed : g.completed = counted calls
  released : g.released = true ↔ ∃ front, front <+: calls ∧ Complete front

theorem counted_concat (calls : List Call) (c : Call) :
    counted (calls ++ [c]) = counted calls + [c].count .mark := List.count_append

theorem Follows.call (h : Follows calls g) (c : Call) : Follows (calls ++ [c]) (g.call c).1 := by
  have hprefixes : (∃ front, front <+: calls ++ [c] ∧ Complete front) ↔
      Complete (calls ++ [c]) ∨ ∃ front, front <+: calls ∧ Complete front := by
    simp [List.prefix_concat_iff, or_and_right, exists_or]
  obtain ⟨hc, htotal, hcall⟩ | ⟨noted, hreleased, htotal, hcompleted, hcall⟩ := call_cases g c
  · rw [h.total] at htotal
    cases c with
    | mark => cases hc
    | setTotal total =>
      -- The refused total changes nothing, and completes nothing that was not complete.
      have hsame : published? (calls ++ [.setTotal total]) = published? calls := by
        rw [published?_concat, Option.or_of_isSome htotal]
      rw [hcall]
      refine ⟨h.total.trans hsame.symm, h.completed.trans (counted_setTotal calls total).symm, ?_⟩
      rw [hprefixes, h.released, Complete, hsame, counted_setTotal]
      exact ⟨Or.inr, fun hp => hp.elim (fun hp => ⟨calls, List.prefix_refl calls, hp⟩) id⟩
  · rw [h.total, ← published?_concat] at htotal
    rw [h.completed, ← counted_concat] at hcompleted
    rw [hcall]
    refine ⟨by simpa using htotal, by simpa using hcompleted, ?_⟩
    rw [tryRelease_released, hprefixes, hreleased, h.released, htotal, hcompleted, Complete, or_comm]

theorem follows_after (calls : List Call) : Follows calls (after {} calls) := by
  induction calls using List.reverseRecOn with
  | nil => exact ⟨rfl, rfl, by simp [Complete, published?]⟩
  | append_singleton calls c ih => rw [after_concat]; exact ih.call c

theorem Follows.shut_iff (h : Follows calls g) :
    g.released = false ↔ ∀ front, front <+: calls → ¬ Complete front := by
  rw [← Bool.not_eq_true, h.released]
  simp

/-- The call that opens the gate is the first with which the calls are complete. -/
theorem Follows.opens_iff (h : Follows calls g) (c : Call) :
    (g.call c).2 = some true ↔
      Complete (calls ++ [c]) ∧ ∀ front, front <+: calls → ¬ Complete front := by
  rw [call_opens_iff, (h.call c).released, ← h.shut_iff]
  refine and_congr_left fun hshut => ⟨?_, fun hall => ⟨_, List.prefix_refl _, hall⟩⟩
  rintro ⟨front, hfront, hcomplete⟩
  rcases List.prefix_concat_iff.mp hfront with rfl | hfront
  · exact hcomplete
  · exact absurd hcomplete (h.shut_iff.mp hshut front hfront)

/-! One total and as many files as it says. -/

section announced

variable {n : Nat} (h : calls.Perm (.setTotal n :: List.replicate n .mark))
include h

theorem published?_of_perm {front : List Call} (hfront : front <+: calls) {total : Int}
    (htotal : published? front = some total) : total = n ∧ .setTotal total ∈ front := by
  obtain ⟨c, hc, hcall⟩ := List.exists_of_findSome?_eq_some htotal
  cases c with
  | mark => cases hcall
  | setTotal m =>
    obtain rfl : m = total := by simpa [Call.total?] using hcall
    have hmem : Call.setTotal m ∈ calls := hfront.subset hc
    rw [h.mem_iff] at hmem
    exact ⟨by simpa [List.mem_replicate] using hmem, hc⟩

theorem eq_of_complete {front : List Call} (hfront : front <+: calls) (hcomplete : Complete front) :
    front = calls := by
  obtain ⟨htotal, hmem⟩ := published?_of_perm h hfront hcomplete
  have hless : counted front < front.length := by
    refine lt_of_le_of_ne List.count_le_length fun heq => ?_
    cases List.count_eq_length.mp heq _ hmem
  have hlength := h.length_eq
  simp only [List.length_cons, List.length_replicate] at hlength
  refine hfront.eq_of_length_le ?_
  omega

theorem complete_of_perm : Complete calls := by
  have hmarks : counted calls = n := by rw [counted, h.count_eq]; simp
  obtain ⟨total, htotal⟩ : ∃ total, published? calls = some total := by
    rw [← Option.isSome_iff_exists, published?, List.findSome?_isSome_iff]
    exact ⟨.setTotal n, h.mem_iff.mpr (by simp), rfl⟩
  obtain ⟨rfl, -⟩ := published?_of_perm h (List.prefix_refl calls) htotal
  rw [Complete, htotal, hmarks]

theorem published?_eq_none {before after : List Call} {c : Call} (hcalls : calls = before ++ c :: after)
    (hc : c.total?.isSome) : published? before = none := by
  have hone : calls.countP (fun c => c.total?.isSome) = 1 := by
    rw [h.countP_eq]
    simp [Call.total?, List.countP_replicate]
  have hnext : (c :: after).countP (fun c => c.total?.isSome) =
      after.countP (fun c => c.total?.isSome) + 1 := List.countP_cons_of_pos hc
  rw [hcalls, List.countP_append, hnext] at hone
  have hnone : before.countP (fun c => c.total?.isSome) = 0 := by omega
  rw [List.countP_eq_zero] at hnone
  simpa [published?] using hnone

theorem answers_front {front : List Call} {c : Call} (hcalls : calls = front ++ [c]) :
    answers {} front = List.replicate front.length (some false) := by
  have hall : ∀ p, p <+: front → answers {} p = List.replicate p.length (some false) := by
    intro p hp
    induction p using List.reverseRecOn with
    | nil => rfl
    | append_singleton p d ih =>
      obtain ⟨rest, hrest⟩ := hp
      have hsplit : calls = p ++ d :: (rest ++ [c]) := by rw [hcalls, ← hrest]; simp
      have hfollows := follows_after p
      have hopens : ((after {} p).call d).2 ≠ some true := by
        rw [Ne, hfollows.opens_iff]
        rintro ⟨hcomplete, -⟩
        have hlength := congrArg List.length
          (eq_of_complete h ⟨rest ++ [c], by simp [hsplit]⟩ hcomplete)
        simp [hsplit] at hlength
      have hrefuses : ((after {} p).call d).2 ≠ none := by
        rw [Ne, call_refuses_iff, hfollows.total]
        rintro ⟨hd, htotal⟩
        rw [published?_eq_none h hsplit hd] at htotal
        cases htotal
      have hanswer : ((after {} p).call d).2 = some false := by
        cases hcase : ((after {} p).call d).2 with
        | none => exact absurd hcase hrefuses
        | some opened =>
          cases opened with
          | true => exact absurd hcase hopens
          | false => rfl
      rw [answers_concat, ih ⟨d :: rest, by simp [← hrest]⟩, hanswer]
      simp [List.replicate_add]
  exact hall front (List.prefix_refl front)

theorem answers_of_perm : answers {} calls = List.replicate n (some false) ++ [some true] := by
  have hlength := h.length_eq
  obtain rfl | ⟨front, c, rfl⟩ := List.eq_nil_or_concat' calls
  · cases hlength
  · have hfront : front.length = n := by simpa using hlength
    have hopens : ((after {} front).call c).2 = some true := by
      rw [(follows_after front).opens_iff]
      refine ⟨complete_of_perm h, fun p hp hcomplete => ?_⟩
      have hlonger := congrArg List.length
        (eq_of_complete h (hp.trans (List.prefix_append front [c])) hcomplete)
      have hle := hp.length_le
      simp at hlonger
      omega
    rw [answers_concat, answers_front h rfl, hopens, hfront]

end announced

/-- A gate opens with the first call after which the total is known and as many files are counted,
and stays open. No other call opens it, and a second total is refused without a trace. Where one
total is published and as many files are counted, the last call opens it. -/
theorem opens_once (calls : List Call) (c : Call) :
    let g := after {} calls
    g.total = published? calls ∧ g.completed = counted calls ∧
      (answers {} calls).count (some true) ≤ 1 ∧
      (g.released = true ↔ some true ∈ answers {} calls) ∧
      ((g.call c).2 = some true ↔
        Complete (calls ++ [c]) ∧ ∀ front, front <+: calls → ¬ Complete front) ∧
      ((g.call c).2 = none ↔ (∃ total, c = .setTotal total) ∧ (published? calls).isSome) ∧
      ((g.call c).2 = none → (g.call c).1 = g) ∧
      ∀ n : Nat, calls.Perm (.setTotal n :: List.replicate n .mark) →
        answers {} calls = List.replicate n (some false) ++ [some true] := by
  intro g
  have hfollows : Follows calls g := follows_after calls
  have hcount : (answers {} calls).count (some true) = g.released.toNat := count_answers calls
  refine ⟨hfollows.total, hfollows.completed, ?_, ?_, hfollows.opens_iff c, ?_, ?_,
    fun n => answers_of_perm⟩
  · rw [hcount]
    exact Bool.toNat_le g.released
  · rw [← List.count_pos_iff, hcount]
    cases g.released <;> simp
  · rw [call_refuses_iff, hfollows.total]
    cases c <;> simp [Call.total?]
  · intro hrefused
    obtain ⟨-, -, hcall⟩ | ⟨noted, -, -, -, hcall⟩ := call_cases g c
    · rw [hcall]
    · rw [hcall] at hrefused
      cases hrefused

end Gate
end FileSweep
