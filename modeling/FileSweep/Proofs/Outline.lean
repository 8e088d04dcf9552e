import FileSweep.Proofs.Release
import FileSweep.Schedule.Run

/-! A sweep with the outcomes of its files left out. The gate sees no more than this: a round of a
chain is no step there, and every other step is the same. So the gate opens here when it opens
there. -/
namespace FileSweep

open Relation

/-- How far an execution has come, its rounds left out. -/
def Stage.phase : Stage → Phase
  | running _ => .running
  | stopped => .running
  | reported => .reported
  | marked => .marked

/-- The command on one file without what it comes to. -/
def Job.outline (j : Job) : Task × Phase := (j.file, j.stage.phase)

@[simp] theorem Job.outline_start (chain : Chain) (t : Task) :
    (Job.start chain t).outline = (t, .running) := rfl

@[simp] theorem Job.outline_next (j : Job) (left : List Step) (verdict : Execution.Verdict) :
    (j.next left verdict).outline = (j.file, .running) := by
  cases verdict <;> rfl

namespace SweepRun

variable {chain : Chain} {options : ExecutionOptions} {s u : SweepRun} {o : SweepState}

/-- Whether a sweep without outcomes is the given one. -/
structure Outlined (s : SweepRun) (o : SweepState) : Prop where
  scan : o.scan = s.scan
  executions : o.executions = s.jobs.map Job.outline
  gate : o.gate = s.gate

theorem Outlined.split (h : s.Outlined o) {before after : List Job} {job : Job}
    (hjobs : s.jobs = before ++ job :: after) :
    o.executions = before.map Job.outline ++ job.outline :: after.map Job.outline := by
  rw [h.executions, hjobs, List.map_append, List.map_cons]

/-- A step of a sweep is a step of the one without outcomes, or none. -/
theorem Outlined.step (h : s.Outlined o) (hstep : Step chain options s u) :
    ∃ p, SweepState.Reaches (fun _ => false) o p ∧ u.Outlined p := by
  cases hstep with
  | @scan action visit hvisit =>
    rw [← h.scan] at hvisit ⊢
    refine ⟨_, ReflTransGen.single (.scan hvisit), rfl, ?_, h.gate⟩
    simp [h.executions, Function.comp_def]
  | cancel => exact ⟨_, ReflTransGen.single .cancel, by rw [h.scan], h.executions, h.gate⟩
  | round hjobs hstage hround =>
    refine ⟨o, ReflTransGen.refl, h.scan, ?_, h.gate⟩
    rw [h.split hjobs, List.map_append, List.map_cons, Job.outline_next, Job.outline, hstage]
    rfl
  | @report before after job hjobs hstage =>
    have hexec := h.split hjobs
    rw [Job.outline, hstage] at hexec
    exact ⟨_, ReflTransGen.single (.report hexec), h.scan, by simp [Job.outline, Stage.phase], h.gate⟩
  | @mark before after job hjobs hstage =>
    have hexec := h.split hjobs
    rw [Job.outline, hstage] at hexec
    refine ⟨_, ReflTransGen.single (.mark hexec), h.scan, ?_, ?_⟩
    · simp [SweepState.passGate, Job.outline, Stage.phase]
    · simp [SweepState.passGate, h.gate]
  | publish hvisit hcall =>
    rw [← h.scan] at hvisit
    rw [← h.gate] at hcall
    exact ⟨_, ReflTransGen.single (.publish hvisit hcall), h.scan, h.executions, rfl⟩

theorem Outlined.reaches (h : s.Outlined o) (hsteps : Reaches chain options s u) :
    ∃ p, SweepState.Reaches (fun _ => false) o p ∧ u.Outlined p := by
  induction hsteps with
  | refl => exact ⟨o, ReflTransGen.refl, h⟩
  | tail _ hstep ih =>
    obtain ⟨p, hp, hout⟩ := ih
    obtain ⟨q, hq, hout'⟩ := hout.step hstep
    exact ⟨q, hp.trans hq, hout'⟩

theorem released_of_reaches {name : String} {survey : Survey} {cancelled : Bool}
    (h : Reaches chain options (start name survey cancelled) s)
    (hpublished : s.gate.total.isSome = true) (hmarked : ∀ j ∈ s.jobs, j.stage = .marked) :
    s.gate.released = true := by
  have hstart : (start name survey cancelled).Outlined (.start name survey cancelled) :=
    ⟨rfl, rfl, rfl⟩
  obtain ⟨p, hp, hout⟩ := hstart.reaches h
  have hbalanced := (SweepState.balanced_start name survey cancelled).reaches hp
  rw [← hout.gate] at hpublished ⊢
  refine hbalanced.opens hpublished fun e he => ?_
  rw [hout.executions] at he
  obtain ⟨j, hj, rfl⟩ := List.mem_map.mp he
  rw [Job.outline, hmarked j hj]
  rfl

end SweepRun
end FileSweep
