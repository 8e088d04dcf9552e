import FileSweep.Proofs.OneShot
import FileSweep.Proofs.Visits
import FileSweep.Schedule.Sweep

/-! The gate of a sweep. It opens when the scan has returned and everything handed on has been
reported, and then it does open, by one call, in every order in which visits, executions and
the publication of the total can happen. -/
namespace FileSweep

namespace SweepState

open Relation

variable {interrupts : Task → Bool} {s u : SweepState}

/-- What holds at every moment of a sweep: the executions are those of the files handed on,
every finished one is counted once, a published total is that of the tree, and the gate is
open when the two agree, by the one call after which they did. -/
structure Balanced (s : SweepState) : Prop where
  sent : (s.executions.map Prod.fst).Perm s.scan.visit.sent
  sound : s.scan.visit.Sound
  completed : s.gate.completed = s.executions.countP fun e => e.2 == .marked
  total : ∀ n, s.gate.total = some n → ∃ node, s.scan.visit = .returned node ∧ n = node.count
  released : s.gate.released = true ↔ s.gate.total = some (s.gate.completed : Int)
  openings : s.openings = s.gate.released.toNat

theorem balanced_start (name : String) (survey : Survey) (cancelled : Bool) :
    (start name survey cancelled).Balanced where
  sent := .refl _
  sound := trivial
  completed := rfl
  total := by intro n h; simp [start] at h
  released := by simp [start]
  openings := rfl

theorem Balanced.total_eq (h : s.Balanced) {n : Int} (hn : s.gate.total = some n) :
    n = s.executions.length := by
  obtain ⟨node, hvisit, rfl⟩ := h.total n hn
  have hsound := h.sound
  rw [hvisit] at hsound
  have hcount : node.count = node.allFiles.length := DirNode.Counted.count_eq hsound
  have hsent := h.sent.length_eq
  rw [hvisit, List.length_map] at hsent
  rw [hcount, hsent]
  rfl

theorem Balanced.shut (h : s.Balanced) {e : Task × Phase} (he : e ∈ s.executions)
    (hphase : e.2 ≠ .marked) : s.gate.released = false := by
  have hless : s.gate.completed < s.executions.length := by
    have hle := List.countP_le_length (p := fun e : Task × Phase => e.2 == .marked)
      (l := s.executions)
    have hne : s.executions.countP (fun e => e.2 == .marked) ≠ s.executions.length := by
      intro heq
      have hall := List.countP_eq_length.mp heq e he
      exact hphase (by simpa using hall)
    rw [h.completed]
    omega
  cases hr : s.gate.released with
  | false => rfl
  | true =>
    have htotal := h.total_eq (h.released.mp hr)
    omega

theorem passGate_tryRelease {g : Gate} (hshut : g.released = false)
    (hopenings : s.openings = g.released.toNat) :
    ((s.passGate g.tryRelease).gate.released = true ↔ g.total = some (g.completed : Int)) ∧
      (s.passGate g.tryRelease).openings = (s.passGate g.tryRelease).gate.released.toNat := by
  refine ⟨?_, ?_⟩
  · have hreleased := Gate.tryRelease_released g
    rwa [or_iff_right (by simp [hshut])] at hreleased
  · rw [passGate]
    simp only [hopenings]
    exact (Gate.tryRelease_opened g).symm

theorem Balanced.scan (h : s.Balanced) {action : Action} {visit : Visit}
    (hvisit : Visit.Step interrupts s.scan.cancelled s.scan.visit action visit) :
    Balanced { s with
      scan := s.scan.after action visit
      executions := s.executions ++ action.tasks.map fun t => (t, .running) } := by
  refine ⟨?_, hvisit.sound h.sound, ?_, ?_, h.released, h.openings⟩
  · have hmap : (s.executions ++ action.tasks.map fun t => (t, Phase.running)).map Prod.fst =
        s.executions.map Prod.fst ++ action.tasks := by
      simp [Function.comp_def]
    have hperm := h.sent.append_right action.tasks
    rw [hmap]
    exact hperm.trans hvisit.sent_perm.symm
  · have hnew : (action.tasks.map fun t => (t, Phase.running)).countP
        (fun e => e.2 == .marked) = 0 := by
      simp [List.countP_eq_zero]
    rw [List.countP_append, hnew]
    exact h.completed
  · intro n hn
    obtain ⟨node, hnode, -⟩ := h.total n hn
    rw [hnode] at hvisit
    cases hvisit

theorem Balanced.report (h : s.Balanced) {before after : List (Task × Phase)} {t : Task}
    (hexec : s.executions = before ++ (t, .running) :: after) :
    Balanced { s with executions := before ++ (t, .reported) :: after } := by
  refine ⟨?_, h.sound, ?_, h.total, h.released, h.openings⟩
  · have hsent := h.sent
    rw [hexec] at hsent
    simpa using hsent
  · have hcompleted := h.completed
    rw [hexec] at hcompleted
    simpa [List.countP_append] using hcompleted

/-- An execution that is counted has kept the gate shut until now. -/
theorem Balanced.mark (h : s.Balanced) {before after : List (Task × Phase)} {t : Task}
    (hexec : s.executions = before ++ (t, .reported) :: after) :
    Balanced (({ s with executions := before ++ (t, .marked) :: after } : SweepState).passGate
      s.gate.mark) := by
  have hshut : s.gate.released = false := by
    have hmem : (t, Phase.reported) ∈ s.executions := by rw [hexec]; simp
    exact h.shut hmem (by simp)
  obtain ⟨hreleased, hopenings⟩ :=
    @passGate_tryRelease { s with executions := before ++ (t, .marked) :: after }
      { s.gate with completed := s.gate.completed + 1 } hshut h.openings
  refine ⟨?_, h.sound, ?_, ?_, ?_, hopenings⟩
  · have hsent := h.sent
    rw [hexec] at hsent
    simpa [passGate] using hsent
  · have hcompleted := h.completed
    rw [hexec] at hcompleted
    simp only [List.countP_append, List.countP_cons] at hcompleted
    simp only [passGate, Gate.mark_completed, List.countP_append, List.countP_cons, hcompleted]
    simp
    omega
  · intro n hn
    exact h.total n (by simpa [passGate] using hn)
  · simpa [passGate, Gate.mark] using hreleased

theorem Balanced.publish (h : s.Balanced) {node : DirNode} {call : Gate × Bool}
    (hvisit : s.scan.visit = .returned node) (hcall : s.gate.setTotal? node.count = some call) :
    (s.passGate call).Balanced := by
  obtain ⟨hnone, rfl⟩ := Gate.setTotal?_eq_some hcall
  have hshut : s.gate.released = false := by
    cases hr : s.gate.released with
    | false => rfl
    | true =>
      have htotal := h.released.mp hr
      rw [hnone] at htotal
      cases htotal
  obtain ⟨hreleased, hopenings⟩ :=
    @passGate_tryRelease s { s.gate with total := some node.count } hshut h.openings
  refine ⟨h.sent, h.sound, ?_, ?_, ?_, hopenings⟩
  · simp only [passGate, Gate.tryRelease_completed]
    exact h.completed
  · intro n hn
    have hn' : some node.count = some n := by simpa [passGate] using hn
    exact ⟨node, hvisit, (Option.some.inj hn').symm⟩
  · simpa [passGate] using hreleased

theorem Balanced.step (h : s.Balanced) (hstep : Step interrupts s u) : u.Balanced := by
  cases hstep with
  | scan hvisit => exact h.scan hvisit
  | cancel => exact ⟨h.sent, h.sound, h.completed, h.total, h.released, h.openings⟩
  | report hexec => exact h.report hexec
  | mark hexec => exact h.mark hexec
  | publish hvisit hcall => exact h.publish hvisit hcall

theorem Balanced.reaches (h : s.Balanced) (hsteps : Reaches interrupts s u) : u.Balanced := by
  induction hsteps with
  | refl => exact h
  | tail _ hstep ih => exact ih.step hstep

theorem Balanced.opens (h : s.Balanced) (hpublished : s.Published) (hmarked : s.AllMarked) :
    s.gate.released = true := by
  obtain ⟨n, hn⟩ := Option.isSome_iff_exists.mp hpublished
  have hall : s.executions.countP (fun e => e.2 == .marked) = s.executions.length := by
    rw [List.countP_eq_length]
    intro e he
    simp [hmarked e he]
  rw [h.released, hn, h.completed, hall, h.total_eq hn]

/-- The gate is not open before the scan has returned and everything handed on is reported;
once the total is published and everything is counted it is, by one call. -/
theorem gate_releases {name : String} {survey : Survey} {cancelled : Bool}
    (h : Reaches interrupts (start name survey cancelled) s) :
    (s.gate.released = true → s.Scanned ∧ s.AllReported) ∧
    (s.Scanned → s.Published → s.AllMarked → s.gate.released = true ∧ s.openings = 1) ∧
    s.openings ≤ 1 := by
  have hb : s.Balanced := (balanced_start name survey cancelled).reaches h
  refine ⟨?_, ?_, ?_⟩
  · intro hopen
    obtain ⟨node, hvisit, -⟩ := hb.total _ (hb.released.mp hopen)
    refine ⟨⟨node, hvisit⟩, ?_⟩
    intro e he hrunning
    have hshut := hb.shut he (by rw [hrunning]; exact Phase.noConfusion)
    rw [hopen] at hshut
    cases hshut
  · rintro - hpublished hmarked
    have hopen := hb.opens hpublished hmarked
    exact ⟨hopen, by rw [hb.openings, hopen]; rfl⟩
  · rw [hb.openings]
    exact Bool.toNat_le _

/-- A sweep that is cancelled while its first file is being reported. -/
theorem gate_releases_after_cancel :
    ∃ s, Reaches (fun _ => false)
        (start "/r"
          { path := "/r"
            files := [{ path := "/r/f", relative := "f", name := "f" }]
            subdirs := [{ path := "/r/d"
                          files := [{ path := "/r/d/g", relative := "d/g", name := "g" }] }] } false)
        s ∧
      s.scan.cancelled = true ∧ s.Scanned ∧ s.Published ∧ s.AllMarked ∧
      s.gate.released = true ∧ s.openings = 1 := by
  let f : Task := { path := "/r/f", relative := "f", name := "f" }
  let d : Survey :=
    { path := "/r/d", files := [{ path := "/r/d/g", relative := "d/g", name := "g" }] }
  let r : Survey := { path := "/r", files := [f], subdirs := [d] }
  have hlisted : Reaches (fun _ => false) (start "/r" r false) _ :=
    ReflTransGen.single (.scan (.list "/r" r rfl))
  have hsent := hlisted.tail (.scan (.send "/r" [] [] [d] f rfl))
  have hreported := hsent.tail (@Step.report _ _ [] [] f rfl)
  have hcancelled := hreported.tail .cancel
  have hdescended := hcancelled.tail (.scan (.descend "/r" [f] [d]))
  have hskipped := hdescended.tail (.scan (.inside "/r" [f] 1 [] [] (.skip (Path.base d.path) d rfl)))
  have hmarked := hskipped.tail (@Step.mark _ _ [] [] f rfl)
  have hmerged := hmarked.tail (.scan (.merge "/r" [f] 1 [] [] { name := Path.base d.path }))
  have hreturned := hmerged.tail (.scan (.finish "/r" [f] 1 [{ name := Path.base d.path }]))
  have hpublished := hreturned.tail (.publish rfl rfl)
  let last : SweepState :=
    { scan :=
        { visit := .returned ⟨"/r", [f], [{ name := Path.base d.path }], 1⟩
          cancelled := true
          dispatched := [f] }
      executions := [(f, .marked)]
      gate := { total := some 1, completed := 1, released := true }
      openings := 1 }
  have hlast : Reaches (fun _ => false) (start "/r" r false) last := hpublished
  obtain ⟨-, hopens, -⟩ := gate_releases hlast
  have hscanned : last.Scanned := ⟨_, rfl⟩
  have hmarked : last.AllMarked := by simp [last, AllMarked]
  exact ⟨last, hlast, rfl, hscanned, rfl, hmarked, hopens hscanned rfl hmarked⟩

end SweepState
end FileSweep
