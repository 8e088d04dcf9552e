import FileSweep.Proofs.Cancellation
import FileSweep.Proofs.ChainControl
import FileSweep.Schedule.Run
import Mathlib.Data.List.Basic

/-! The books of a sweep. The tree counts its files, the receiver of the reports is given every
one of them once, and the closing totals judge them again. The numbers agree in every schedule:
a file that is reported has come to its end and does not change any more. -/
namespace FileSweep

namespace DirNode

variable (f : Task → Task)

mutual

theorem allFiles_mapFiles : (d : DirNode) → (d.mapFiles f).allFiles = d.allFiles.map f
  | ⟨_, files, dirs, _⟩ => by
    rw [mapFiles, allFiles, allFiles, List.map_append, allFilesOf_mapFilesOf dirs]

theorem allFilesOf_mapFilesOf :
    (ds : List DirNode) → allFilesOf (mapFilesOf f ds) = (allFilesOf ds).map f
  | [] => rfl
  | d :: ds => by
    rw [mapFilesOf, allFilesOf, allFilesOf, List.map_append, allFiles_mapFiles d,
      allFilesOf_mapFilesOf ds]

end

@[simp] theorem count_mapFiles (d : DirNode) : (d.mapFiles f).count = d.count := by
  cases d
  rfl

end DirNode

/-- The outcome of a sweep agrees with the reports made on its way. -/
structure SweepResult.Balanced (r : SweepResult) (passCode : Int) (reports : List Task) : Prop where
  total : r.numPassed + r.numFailed = r.numFiles
  files : ∃ root, r.root = some root ∧ r.numFiles = root.allFiles.length ∧
    reports.Perm root.allFiles
  reported : r.numFiles = reports.length
  once : (reports.map Task.path).Nodup
  passed : r.numPassed = reports.countP fun t => t.passes passCode

namespace Sweep

theorem find?_path {done : List Task} (honce : (done.map Task.path).Nodup) {t : Task}
    (ht : t ∈ done) : (done.find? fun d => d.path == t.path) = some t := by
  induction done with
  | nil => cases ht
  | cons d done ih =>
    obtain ⟨hnot, hrest⟩ := List.nodup_cons.mp honce
    rcases List.mem_cons.mp ht with rfl | hlater
    · simp
    · have hne : d.path ≠ t.path := fun heq => hnot (heq ▸ List.mem_map_of_mem hlater)
      rw [List.find?_cons_of_neg (by simpa using hne)]
      exact ih hrest hlater

/-- The files of the tree with outcomes are the outcomes, whatever the order in which the files
were handed on. -/
theorem allFiles_withOutcomes {root : DirNode} {handedOn done : List Task}
    (hfiles : handedOn.Perm root.allFiles) (honce : (handedOn.map Task.path).Nodup)
    (hsame : done.map Task.path = handedOn.map Task.path) :
    (withOutcomes root done).allFiles.Perm done := by
  let outcome : Task → Task := fun t => (done.find? fun d => d.path == t.path).getD t
  have hdone : (done.map Task.path).Nodup := hsame ▸ honce
  have hreplace : handedOn.map outcome = done := by
    let found : String → Task := fun p => (done.find? fun d => d.path == p).getD default
    have houtcome : ∀ t ∈ handedOn, outcome t = found t.path := by
      intro t ht
      have hpath : t.path ∈ done.map Task.path := hsame ▸ List.mem_map_of_mem ht
      obtain ⟨d, hd, hdt⟩ := List.mem_map.mp hpath
      simp only [outcome, found, ← hdt, find?_path hdone hd, Option.getD_some]
    have hfound : ∀ d ∈ done, found d.path = d := by
      intro d hd
      simp only [found, find?_path hdone hd, Option.getD_some]
    calc handedOn.map outcome = (handedOn.map Task.path).map found := by
          rw [List.map_congr_left houtcome, List.map_map]; rfl
      _ = (done.map Task.path).map found := by rw [hsame]
      _ = done.map id := by rw [List.map_map]; exact List.map_congr_left hfound
      _ = done := List.map_id done
  have hperm := hfiles.symm.map outcome
  rw [hreplace] at hperm
  rw [withOutcomes, DirNode.allFiles_mapFiles]
  exact hperm

theorem balanced_conclude (settings : Settings) {chain : Chain} (hchain : chain.isEmpty = false)
    {root : DirNode} {reports : List Task} (cancelled : Bool)
    (hcount : root.count = root.allFiles.length) (hreports : reports.Perm root.allFiles)
    (honce : (reports.map Task.path).Nodup) :
    (conclude settings chain root cancelled).Balanced settings.passCode reports where
  total := by
    have hsplit := @List.length_eq_countP_add_countP _ (fun t : Task => t.passes settings.passCode)
      root.allFiles
    simp only [Bool.not_eq_true, Bool.decide_eq_false] at hsplit
    simp only [conclude, hchain, hcount, hsplit]
    simp
  files := ⟨root, rfl, hcount, hreports⟩
  reported := by
    rw [hreports.length_eq]
    exact hcount
  once := honce
  passed := by
    simp only [conclude, hchain, hreports.countP_eq]
    simp

end Sweep

namespace Execution

def Verdict.task : Verdict → Task
  | proceeds t => t
  | ends t _ => t

theorem round_sameFile {σ : Type} (launcher : Launcher σ) (options : ExecutionOptions) (step : Step)
    (isLast : Bool) (t : Task) (w : World σ) :
    t.SameFile (round launcher options step isLast t w).2.task := by
  have hran := runStep_ran launcher options step t w
  unfold round
  generalize runStep launcher options step t w = result at hran ⊢
  obtain ⟨v, outcome⟩ := result
  cases outcome with
  | error a =>
    cases a with
    | escaped e => exact .refl t
    | failed f => exact ⟨rfl, rfl, rfl⟩
  | ok u =>
    have hu := hran.sameFile.1
    simp only [follow]
    cases proceeds? step.continuation u.exitCode with
    | error f => exact hu.trans ⟨rfl, rfl, rfl⟩
    | ok proceed =>
      simp only
      split
      · exact hu.trans ⟨rfl, rfl, rfl⟩
      · split <;> exact hu

end Execution

namespace Job

@[simp] theorem file_next (j : Job) (left : List Step) (verdict : Execution.Verdict) :
    (j.next left verdict).file = j.file := by cases verdict <;> rfl

@[simp] theorem task_next (j : Job) (left : List Step) (verdict : Execution.Verdict) :
    (j.next left verdict).task = verdict.task := by cases verdict <;> rfl

@[simp] theorem reports_next (j : Job) (left : List Step) (verdict : Execution.Verdict) :
    (j.next left verdict).reports = [] := by cases verdict <;> rfl

theorem reports_of_running {j : Job} {left : List Step} (h : j.stage = .running left) :
    j.reports = [] := by
  rw [reports, h]

end Job

namespace SweepRun

open Relation

variable {chain : Chain} {options : ExecutionOptions} {s u : SweepRun} {full node : DirNode}

/-- What holds at every moment of a sweep: its scan is in order, every file handed on has its job,
and the reports made so far tell what is recorded of the files reported. -/
structure Kept (full : DirNode) (s : SweepRun) : Prop where
  scan : s.scan.Within full
  handedOn : s.jobs.map Job.file = s.scan.dispatched
  sameFile : ∀ j ∈ s.jobs, j.file.SameFile j.task
  reports : s.reports.Perm (s.jobs.flatMap Job.reports)

theorem kept_start (name : String) (survey : Survey) (cancelled : Bool) :
    Kept (survey.tree name) (start name survey cancelled) where
  scan := Traversal.within_start name survey cancelled
  handedOn := rfl
  sameFile := by simp [start]
  reports := .refl _

theorem Kept.step (h : s.Kept full) (hstep : Step chain options s u) : u.Kept full := by
  obtain ⟨hscan, hhandedOn, hsame, hreports⟩ := h
  cases hstep with
  | @scan action visit hvisit =>
    refine ⟨hscan.step (fun _ => rfl) (Or.inl ⟨action, visit, hvisit, rfl⟩), ?_, ?_, ?_⟩
    · simp [hhandedOn, Traversal.after, Job.start, Function.comp_def]
    · intro j hj
      rcases List.mem_append.mp hj with hj | hj
      · exact hsame j hj
      · obtain ⟨t, -, rfl⟩ := List.mem_map.mp hj
        exact ⟨rfl, rfl, rfl⟩
    · have hnone : (action.tasks.map (Job.start chain)).flatMap Job.reports = [] := by
        simp [List.flatMap_map, Job.start, Job.reports]
      rw [List.flatMap_append, hnone, List.append_nil]
      exact hreports
  | cancel => exact ⟨hscan.step (fun _ => rfl) (Or.inr rfl), hhandedOn, hsame, hreports⟩
  | @round σ launcher w w' before after job step left verdict hjobs hstage hround =>
    have hfile := Execution.round_sameFile launcher options step left.isEmpty job.task w
    rw [hjobs] at hhandedOn hsame hreports
    rw [hround] at hfile
    refine ⟨hscan, by simpa using hhandedOn, forall_mem_replace hsame fun hj => ?_, ?_⟩
    · rw [Job.file_next, Job.task_next]
      exact hj.trans hfile
    · simpa [Job.reports_of_running hstage] using hreports
  | @report before after job hjobs hstage =>
    rw [hjobs] at hhandedOn hsame hreports
    refine ⟨hscan, by simpa using hhandedOn, forall_mem_replace hsame fun hj => hj, ?_⟩
    have hnew := hreports.append_right [job.task]
    simp only [List.flatMap_append, List.flatMap_cons, Job.reports, hstage, List.nil_append,
      List.append_assoc] at hnew ⊢
    exact hnew.trans (List.perm_append_comm.append_left _)
  | @mark before after job hjobs hstage =>
    rw [hjobs] at hhandedOn hsame hreports
    refine ⟨hscan, by simpa using hhandedOn, forall_mem_replace hsame fun hj => hj, ?_⟩
    simpa [Job.reports, hstage] using hreports
  | publish hvisit hcall => exact ⟨hscan, hhandedOn, hsame, hreports⟩

theorem Kept.reaches (h : s.Kept full) (hsteps : Reaches chain options s u) : u.Kept full := by
  induction hsteps with
  | refl => exact h
  | tail _ hstep ih => exact ih.step hstep

/-- When a sweep has come to its end, its outcome agrees with its reports. -/
theorem Kept.balanced (h : s.Kept full) (hfull : (full.allFiles.map Task.path).Nodup)
    (hend : s.Returned node) (settings : Settings) (hchain : chain.isEmpty = false)
    (cancelled : Bool) :
    (s.result settings chain node cancelled).Balanced settings.passCode s.reports := by
  have hbooks := h.scan.books hfull hend.scanned
  have hreports : s.reports.Perm (s.jobs.map Job.task) := by
    have hall : s.jobs.flatMap Job.reports = s.jobs.map Job.task := by
      rw [List.map_eq_flatMap]
      exact List.flatMap_congr fun j hj => by rw [Job.reports, hend.marked j hj]
    exact hall ▸ h.reports
  have hpaths : (s.jobs.map Job.task).map Task.path = s.scan.dispatched.map Task.path := by
    rw [← h.handedOn, List.map_map, List.map_map]
    exact List.map_congr_left fun j hj => (h.sameFile j hj).1
  have htree := Sweep.allFiles_withOutcomes hbooks.handedOn hbooks.once hpaths
  have hcount : node.count = (Sweep.withOutcomes node (s.jobs.map Job.task)).allFiles.length := by
    rw [Sweep.withOutcomes, DirNode.allFiles_mapFiles, List.length_map]
    exact hbooks.counted.count_eq
  refine Sweep.balanced_conclude settings hchain cancelled ?_ (hreports.trans htree.symm) ?_
  · rw [← hcount, Sweep.withOutcomes, DirNode.count_mapFiles]
  · exact (hreports.map Task.path).nodup_iff.mpr (hpaths ▸ hbooks.once)

end SweepRun
end FileSweep
