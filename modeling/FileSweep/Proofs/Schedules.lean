import FileSweep.Proofs.Visits

/-! Schedules of a scan. A visit that has not ended can always go on, every step brings it
nearer to its end, and as long as nothing breaks off and nothing is cancelled no step changes
the tree that it will return: so all schedules end, and all with the same tree. -/
namespace FileSweep

namespace Survey

mutual

/-- The tree that an undisturbed visit of a directory returns. -/
def tree (name : String) : Survey → DirNode
  | ⟨_, _, files, subdirs⟩ =>
    { name
      files
      dirs := trees subdirs
      count := files.length + DirNode.countOf (trees subdirs) }

def trees : List Survey → List DirNode
  | [] => []
  | s :: ss => tree (Path.base s.path) s :: trees ss

end

mutual

/-- A bound on the steps that the visit of a directory makes, here and below. -/
def work : Survey → Nat
  | ⟨_, _, files, subdirs⟩ => files.length + works subdirs + 5

def works : List Survey → Nat
  | [] => 0
  | s :: ss => s.work + works ss

end

end Survey

namespace Visit

variable {interrupts : Task → Bool} {cancelled : Bool} {v v' : Visit} {action : Action}

theorem ended_cases {vs : List Visit} (h : ∀ v ∈ vs, v.ended = true) :
    (∃ nodes : List DirNode, vs = nodes.map merged) ∨
      ∃ before u after, vs = before ++ u :: after ∧
        ((∃ node, u = returned node) ∨ ∃ sent, u = raised sent) := by
  induction vs with
  | nil => exact Or.inl ⟨[], rfl⟩
  | cons v vs ih =>
    have hv := h v (by simp)
    cases v with
    | returned node => exact Or.inr ⟨[], returned node, vs, rfl, Or.inl ⟨node, rfl⟩⟩
    | raised sent => exact Or.inr ⟨[], raised sent, vs, rfl, Or.inr ⟨sent, rfl⟩⟩
    | merged node =>
      rcases ih fun u hu => h u (List.mem_cons_of_mem _ hu) with ⟨nodes, rfl⟩ | hsome
      · exact Or.inl ⟨node :: nodes, rfl⟩
      · obtain ⟨before, u, after, rfl, hu⟩ := hsome
        exact Or.inr ⟨merged node :: before, u, after, rfl, hu⟩
    | waiting name survey => simp [ended] at hv
    | sending name sent left subdirs => simp [ended] at hv
    | joining name files count children => simp [ended] at hv
    | leaving files children => simp [ended] at hv

mutual

theorem exists_step (interrupts : Task → Bool) (cancelled : Bool) :
    (v : Visit) → v.ended = true ∨ ∃ action v', Step interrupts cancelled v action v'
  | waiting name survey => by
    cases cancelled with
    | true => exact Or.inr ⟨_, _, .skip name survey rfl⟩
    | false => exact Or.inr ⟨_, _, .list name survey rfl⟩
  | sending name sent [] subdirs => Or.inr ⟨_, _, .descend name sent subdirs⟩
  | sending name sent (t :: left) subdirs => by
    cases ht : interrupts t with
    | true => exact Or.inr ⟨_, _, .interrupt name sent left subdirs t ht⟩
    | false => exact Or.inr ⟨_, _, .send name sent left subdirs t ht⟩
  | joining name files count children => by
    refine Or.inr ?_
    rcases exists_step_below interrupts cancelled children with hall | hsome
    · rcases ended_cases hall with ⟨nodes, rfl⟩ | ⟨before, u, after, rfl, ⟨node, rfl⟩ | ⟨sent, rfl⟩⟩
      · exact ⟨_, _, .finish name files count nodes⟩
      · exact ⟨_, _, .merge name files count before after node⟩
      · exact ⟨_, _, .notice name files count before after sent⟩
    · obtain ⟨before, after, child, child', action, rfl, h⟩ := hsome
      exact ⟨_, _, .inside name files count before after h⟩
  | leaving files children => by
    refine Or.inr ?_
    rcases exists_step_below interrupts cancelled children with hall | hsome
    · exact ⟨_, _, .leave files children hall⟩
    · obtain ⟨before, after, child, child', action, rfl, h⟩ := hsome
      exact ⟨_, _, .insideLeaving files before after h⟩
  | returned node => Or.inl rfl
  | merged node => Or.inl rfl
  | raised sent => Or.inl rfl

theorem exists_step_below (interrupts : Task → Bool) (cancelled : Bool) :
    (vs : List Visit) → (∀ v ∈ vs, v.ended = true) ∨
      ∃ before after child child' action, vs = before ++ child :: after ∧
        Step interrupts cancelled child action child'
  | [] => Or.inl (by simp)
  | v :: vs => by
    rcases exists_step interrupts cancelled v with hv | ⟨action, v', h⟩
    · rcases exists_step_below interrupts cancelled vs with hall | hsome
      · exact Or.inl (by simpa using ⟨hv, hall⟩)
      · obtain ⟨before, after, child, child', action, rfl, h⟩ := hsome
        exact Or.inr ⟨v :: before, after, child, child', action, rfl, h⟩
    · exact Or.inr ⟨[], vs, v, v', action, rfl, h⟩

end

mutual

def work : Visit → Nat
  | waiting _ survey => survey.work
  | sending _ _ left subdirs => left.length + Survey.works subdirs + 4
  | joining _ _ _ children => works children + 3
  | leaving _ children => works children + 2
  | returned _ => 1
  | raised _ => 1
  | merged _ => 0

def works : List Visit → Nat
  | [] => 0
  | v :: vs => v.work + works vs

end

@[simp] theorem works_append (us vs : List Visit) : works (us ++ vs) = works us + works vs := by
  induction us with
  | nil => simp [works]
  | cons u us ih => rw [List.cons_append, works, works, ih]; omega

@[simp] theorem works_start (surveys : List Survey) :
    works (surveys.map start) = Survey.works surveys := by
  induction surveys with
  | nil => rfl
  | cons s ss ih => rw [List.map_cons, works, Survey.works, ih]; rfl

theorem Step.work_lt (h : Step interrupts cancelled v action v') : v'.work < v.work := by
  induction h with
  | skip name survey h =>
    obtain ⟨path, refused, files, subdirs⟩ := survey
    simp only [work, Survey.work]
    omega
  | list name survey h =>
    obtain ⟨path, refused, files, subdirs⟩ := survey
    simp only [work, Survey.work]
    omega
  | send name sent' left subdirs t h => simp only [work, List.length_cons]; omega
  | interrupt name sent' left subdirs t h => simp only [work]; omega
  | descend name sent' subdirs => simp only [work, works_start, List.length_nil]; omega
  | inside name files count before after h ih =>
    simp only [work, works_append, works]
    omega
  | merge name files count before after node =>
    simp only [work, works_append, works]
    omega
  | finish name files count nodes => simp only [work]; omega
  | notice name files count before after sent' => simp only [work]; omega
  | insideLeaving files before after h ih =>
    simp only [work, works_append, works]
    omega
  | leave files children h => simp only [work]; omega

mutual

/-- Whether nothing has broken off, here or below. -/
def Calm : Visit → Prop
  | joining _ _ _ children => AllCalm children
  | leaving _ _ => False
  | raised _ => False
  | _ => True

def AllCalm : List Visit → Prop
  | [] => True
  | v :: vs => v.Calm ∧ AllCalm vs

end

theorem allCalm_iff (vs : List Visit) : AllCalm vs ↔ ∀ v ∈ vs, v.Calm := by
  induction vs with
  | nil => simp [AllCalm]
  | cons v vs ih => simp [AllCalm, ih]

theorem AllCalm.replace {before after : List Visit} {u u' : Visit}
    (h : AllCalm (before ++ u :: after)) (hu : u.Calm → u'.Calm) :
    AllCalm (before ++ u' :: after) := by
  rw [allCalm_iff] at h ⊢
  exact forall_mem_replace h hu

theorem AllCalm.calm {before after : List Visit} {u : Visit}
    (h : AllCalm (before ++ u :: after)) : u.Calm :=
  (allCalm_iff _).mp h u (by simp)

theorem allCalm_start (surveys : List Survey) : AllCalm (surveys.map start) := by
  refine (allCalm_iff _).mpr fun u hu => ?_
  obtain ⟨survey, -, rfl⟩ := List.mem_map.mp hu
  trivial

theorem Step.calm (hgo : ∀ t, interrupts t = false) (h : Step interrupts cancelled v action v')
    (hv : v.Calm) : v'.Calm := by
  induction h with
  | skip name survey h => trivial
  | list name survey h => trivial
  | send name sent' left subdirs t h => trivial
  | interrupt name sent' left subdirs t h => rw [hgo t] at h; cases h
  | descend name sent' subdirs => exact allCalm_start subdirs
  | inside name files count before after h ih => exact AllCalm.replace hv ih
  | merge name files count before after node => exact AllCalm.replace hv fun _ => trivial
  | finish name files count nodes => trivial
  | notice name files count before after sent' => exact (AllCalm.calm hv).elim
  | insideLeaving files before after h ih => exact hv
  | leave files children h => exact hv

mutual

/-- The tree that a visit will return when nothing breaks off and nothing is cancelled. -/
def outcome : Visit → DirNode
  | waiting name survey => survey.tree name
  | sending name sent left subdirs =>
    { name
      files := sent ++ left
      dirs := Survey.trees subdirs
      count := (sent ++ left).length + DirNode.countOf (Survey.trees subdirs) }
  | joining name files count children =>
    { name, files, dirs := outcomes children, count := count + uncounted children }
  | returned node => node
  | merged node => node
  | leaving _ _ => {}
  | raised _ => {}

def outcomes : List Visit → List DirNode
  | [] => []
  | v :: vs => v.outcome :: outcomes vs

/-- The counts that the visit above has still to add. -/
def uncounted : List Visit → Int
  | [] => 0
  | v :: vs => (if v.isMerged then 0 else v.outcome.count) + uncounted vs

end

@[simp] theorem outcomes_eq (vs : List Visit) : outcomes vs = vs.map outcome := by
  induction vs with
  | nil => rfl
  | cons v vs ih => rw [outcomes, ih, List.map_cons]

@[simp] theorem uncounted_append (us vs : List Visit) :
    uncounted (us ++ vs) = uncounted us + uncounted vs := by
  induction us with
  | nil => simp [uncounted]
  | cons u us ih => rw [List.cons_append, uncounted, uncounted, ih]; omega

@[simp] theorem outcomes_start (surveys : List Survey) :
    (surveys.map start).map outcome = Survey.trees surveys := by
  induction surveys with
  | nil => rfl
  | cons s ss ih => rw [List.map_cons, List.map_cons, ih, Survey.trees]; rfl

@[simp] theorem uncounted_start (surveys : List Survey) :
    uncounted (surveys.map start) = DirNode.countOf (Survey.trees surveys) := by
  induction surveys with
  | nil => rfl
  | cons s ss ih => rw [List.map_cons, uncounted, ih, Survey.trees, DirNode.countOf]; rfl

@[simp] theorem uncounted_merged (nodes : List DirNode) : uncounted (nodes.map merged) = 0 := by
  induction nodes with
  | nil => rfl
  | cons d ds ih => rw [List.map_cons, uncounted, ih]; rfl

/-- No step of an undisturbed scan changes what it leads to. -/
theorem Step.outcome_eq (hgo : ∀ t, interrupts t = false) (h : Step interrupts false v action v')
    (hv : v.Calm) : v'.outcome = v.outcome := by
  induction h with
  | skip name survey h => cases h
  | list name survey h =>
    obtain ⟨path, refused, files, subdirs⟩ := survey
    simp [outcome, Survey.tree]
  | send name sent' left subdirs t h => simp [outcome]
  | interrupt name sent' left subdirs t h => rw [hgo t] at h; cases h
  | descend name sent' subdirs =>
    rw [outcome, outcome, outcomes_eq, outcomes_start, uncounted_start, List.append_nil]
  | inside name files count before after h ih =>
    have hchild := ih (AllCalm.calm hv)
    obtain ⟨hold, hnew⟩ := h.not_merged
    simp [outcome, uncounted, hchild, hold, hnew]
  | merge name files count before after node =>
    have hcount : count + node.count + (uncounted before + uncounted after) =
        count + (uncounted before + (node.count + uncounted after)) := by omega
    simp [outcome, uncounted, isMerged, hcount]
  | finish name files count nodes => simp [outcome, Function.comp_def]
  | notice name files count before after sent' => exact (AllCalm.calm hv).elim
  | insideLeaving files before after h ih => exact hv.elim
  | leave files children h => exact hv.elim

theorem Step.cancels_eq (h : Step interrupts cancelled v action v') (hv : v.Calm) :
    action.cancels = false := by
  induction h with
  | inside name files count before after h ih => exact ih (AllCalm.calm hv)
  | notice name files count before after sent' => exact (AllCalm.calm hv).elim
  | insideLeaving files before after h ih => exact hv.elim
  | _ => rfl

theorem returned_or_step (interrupts : Task → Bool) (cancelled : Bool) (hcalm : v.Calm)
    (hmerged : v.isMerged = false) :
    (∃ node, v = returned node) ∨ ∃ action v', Step interrupts cancelled v action v' := by
  rcases exists_step interrupts cancelled v with hended | hstep
  · left
    cases v with
    | returned node => exact ⟨node, rfl⟩
    | raised sent => exact hcalm.elim
    | merged node => cases hmerged
    | waiting name survey => cases hended
    | sending name sent left subdirs => cases hended
    | joining name files count children => cases hended
    | leaving files children => cases hended
  · exact Or.inr hstep

end Visit

namespace Traversal

open Relation

variable {interrupts : Task → Bool} {t u : Traversal} {node : DirNode}

/-- A scan that nothing has disturbed and that will return the given tree. -/
structure Undisturbed (node : DirNode) (t : Traversal) : Prop where
  cancelled : t.cancelled = false
  calm : t.visit.Calm
  notMerged : t.visit.isMerged = false
  outcome : t.visit.outcome = node

theorem undisturbed_start (name : String) (survey : Survey) :
    Undisturbed (survey.tree name) { visit := .waiting name survey } :=
  ⟨rfl, trivial, rfl, rfl⟩

theorem Undisturbed.advance (hgo : ∀ t, interrupts t = false) (h : t.Undisturbed node)
    (hstep : Advance interrupts t u) : u.Undisturbed node := by
  obtain ⟨action, visit, hvisit, rfl⟩ := hstep
  have hcancels := hvisit.cancels_eq h.calm
  have hsame := hvisit
  rw [h.cancelled] at hsame
  refine ⟨?_, hvisit.calm hgo h.calm, hvisit.not_merged.2, ?_⟩
  · simp [after, h.cancelled, hcancels]
  · exact (hsame.outcome_eq hgo h.calm).trans h.outcome

theorem Undisturbed.advances (hgo : ∀ t, interrupts t = false) (h : t.Undisturbed node)
    (hsteps : ReflTransGen (Advance interrupts) t u) : u.Undisturbed node := by
  induction hsteps with
  | refl => exact h
  | tail _ hstep ih => exact ih.advance hgo hstep

theorem Undisturbed.returned_or_advance (interrupts : Task → Bool) (h : t.Undisturbed node) :
    t.visit = .returned node ∨ ∃ u, Advance interrupts t u := by
  rcases Visit.returned_or_step interrupts t.cancelled h.calm h.notMerged with
    ⟨d, hd⟩ | ⟨action, v, hstep⟩
  · left
    have houtcome := h.outcome
    rw [hd] at houtcome
    rw [hd, ← houtcome]
    rfl
  · exact Or.inr ⟨_, action, v, hstep, rfl⟩

theorem work_le {schedule : Nat → Traversal}
    (hsteps : ∀ n, Advance interrupts (schedule n) (schedule (n + 1))) (n : Nat) :
    (schedule n).visit.work + n ≤ (schedule 0).visit.work := by
  induction n with
  | zero => exact Nat.le_refl _
  | succ n ih =>
    obtain ⟨action, visit, hvisit, hnext⟩ := hsteps n
    have hlt := hvisit.work_lt
    rw [hnext]
    simp only [after]
    omega

theorem not_endless (schedule : Nat → Traversal) :
    ¬ ∀ n, Advance interrupts (schedule n) (schedule (n + 1)) := by
  intro hsteps
  have h := work_le hsteps ((schedule 0).visit.work + 1)
  omega

end Traversal

namespace Scan

variable {reply : Task → Reply}

theorem dispatchAll_go (hgo : ∀ t, reply t = .go) (s : ScanState) (files : List Task) :
    s.dispatchAll reply files = ({ s with dispatched := s.dispatched ++ files }, false) := by
  induction files generalizing s with
  | nil => simp [ScanState.dispatchAll]
  | cons t ts ih => simp [ScanState.dispatchAll, ScanState.dispatch, hgo, ih]

theorem exists_noted (refused : Bool) (s : ScanState) (path : String) (times : Nat) :
    ∃ noted : ScanState, noted = (if refused then s.noteRefusal path times else s) ∧
      noted.cancelled = s.cancelled ∧ noted.dispatched = s.dispatched := by
  refine ⟨_, rfl, ?_⟩
  cases refused <;> exact ⟨rfl, rfl⟩

mutual

/-- Visiting the directories one after another gives the same tree. -/
theorem visit_go (recurse : Bool) (hgo : ∀ t, reply t = .go) (name : String) :
    (survey : Survey) → (s : ScanState) → s.cancelled = false →
      ∃ s' : ScanState, visit recurse reply name survey s = (some (survey.tree name), s') ∧
        s'.cancelled = false
  | ⟨path, refused, files, subdirs⟩, s, hs => by
    obtain ⟨noted, hn, hsame, -⟩ := exists_noted refused s path (if recurse then 2 else 1)
    have hnoted : noted.cancelled = false := hsame.trans hs
    obtain ⟨s', hrest, hs'⟩ := visitAll_go recurse hgo subdirs
      { name, files, count := files.length }
      { noted with dispatched := noted.dispatched ++ files } hnoted
    refine ⟨s'.note .debug (visitMessage path (Survey.tree name ⟨path, refused, files, subdirs⟩)),
      ?_, hs'⟩
    rw [visit, if_neg (by simp [hs])]
    simp only [← hn, dispatchAll_go hgo, hrest]
    simp [Survey.tree]

theorem visitAll_go (recurse : Bool) (hgo : ∀ t, reply t = .go) :
    (subs : List Survey) → (node : DirNode) → (s : ScanState) → s.cancelled = false →
      ∃ s' : ScanState,
        visitAll recurse reply node subs s =
          (some { node with
            dirs := node.dirs ++ Survey.trees subs
            count := node.count + DirNode.countOf (Survey.trees subs) }, s') ∧
        s'.cancelled = false
  | [], node, s, hs => ⟨s, by cases node; simp [visitAll, Survey.trees], hs⟩
  | sub :: subs, node, s, hs => by
    obtain ⟨s₁, hfirst, hs₁⟩ := visit_go recurse hgo (Path.base sub.path) sub s hs
    obtain ⟨s₂, hrest, hs₂⟩ := visitAll_go recurse hgo subs
      (adopt node (sub.tree (Path.base sub.path))) s₁ hs₁
    refine ⟨s₂, ?_, hs₂⟩
    rw [visitAll, hfirst]
    simp only
    rw [hrest]
    simp [adopt, Survey.trees, DirNode.countOf, Int.add_assoc]

end

/-- A scan that begins is the visit of its root, with one record before it and perhaps one behind
it. -/
theorem exists_run_eq {h : Host} {request : ScanRequest} {children : List (String × Entry)}
    {glob : Glob} {root : String} (hroot : h.absolute request.root = root)
    (hdir : h.entry? root = some (.dir children))
    (hglob : Glob.compile? request.pattern = some glob) (reply : Task → Reply) (cancelled : Bool) :
    ∃ started : ScanState, started.dispatched = [] ∧ started.cancelled = cancelled ∧
      ∀ result s, visit request.recurse reply root
          (Survey.ofEntry h ⟨root, glob, request.recurse⟩ root (.dir children)) started = (result, s) →
        ∃ last : ScanState, run h request reply cancelled = .ok ⟨result, last⟩ ∧
          last.dispatched = s.dispatched ∧ last.cancelled = s.cancelled := by
  refine ⟨({ cancelled } : ScanState).note .debug
    ("DIRSCAN: start root=" ++ root ++ " files=" ++ request.pattern ++ " recurse=" ++
      (if request.recurse then "True" else "False")), rfl, rfl, fun result s hvisit => ?_⟩
  unfold run
  simp only [hroot, hdir, hglob]
  rw [hvisit]
  cases result with
  | none => exact ⟨s, rfl, rfl, rfl⟩
  | some node => exact ⟨_, rfl, rfl, rfl⟩

end Scan
end FileSweep
