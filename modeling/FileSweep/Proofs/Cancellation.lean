import FileSweep.Proofs.ScanTree
import FileSweep.Proofs.Sequential

/-! A scan that is cancelled, at whatever moment. The visits that have not begun by then find
nothing, and those that have go on: so the tree is that of the scan without the directories cut
off. Its counts are right, and its files are those that were handed on. -/
namespace FileSweep

def Survey.emptied (survey : Survey) : Survey := { path := survey.path }

namespace Visit

variable {interrupts : Task → Bool} {cancelled : Bool} {v v' : Visit} {action : Action}

mutual

/-- The visit when those that have not begun find nothing. -/
def cut : Visit → Visit
  | waiting name survey => waiting name survey.emptied
  | sending name sent left subdirs => sending name sent left (subdirs.map Survey.emptied)
  | joining name files count children => joining name files count (cuts children)
  | returned node => returned node
  | merged node => merged node
  | leaving files children => leaving files (cuts children)
  | raised sent => raised sent

def cuts : List Visit → List Visit
  | [] => []
  | v :: vs => v.cut :: cuts vs

end

@[simp] theorem cuts_eq (vs : List Visit) : cuts vs = vs.map cut := by
  induction vs with
  | nil => rfl
  | cons v vs ih => rw [cuts, ih, List.map_cons]

@[simp] theorem isMerged_cut (v : Visit) : v.cut.isMerged = v.isMerged := by
  cases v <;> rfl

@[simp] theorem cut_start (surveys : List Survey) :
    (surveys.map start).map cut = (surveys.map Survey.emptied).map start := by
  simp [start, cut, Survey.emptied, Function.comp_def]

@[simp] theorem cut_merged (nodes : List DirNode) :
    (nodes.map merged).map cut = nodes.map merged := by
  simp [cut, Function.comp_def]

mutual

theorem Calm.cut : (v : Visit) → v.Calm → v.cut.Calm
  | waiting _ _, _ => trivial
  | sending _ _ _ _, _ => trivial
  | joining _ _ _ children, h => AllCalm.cuts children h
  | returned _, _ => trivial
  | merged _, _ => trivial

theorem AllCalm.cuts : (vs : List Visit) → AllCalm vs → AllCalm (cuts vs)
  | [], _ => trivial
  | v :: vs, h => ⟨Calm.cut v h.1, AllCalm.cuts vs h.2⟩

end

/-- In a cancelled scan no step changes the tree of what has begun. -/
theorem Step.cut_outcome (hgo : ∀ t, interrupts t = false) (h : Step interrupts true v action v')
    (hv : v.Calm) : v'.cut.outcome = v.cut.outcome := by
  induction h with
  | skip name survey h => simp [cut, outcome, Survey.emptied, Survey.tree, Survey.trees]
  | list name survey h => cases h
  | send name sent left subdirs t h =>
    exact (Step.send name sent left (subdirs.map Survey.emptied) t h).outcome_eq hgo trivial
  | interrupt name sent left subdirs t h => rw [hgo t] at h; cases h
  | descend name sent subdirs =>
    rw [cut, cut, cuts_eq, cut_start]
    exact (Step.descend name sent (subdirs.map Survey.emptied)).outcome_eq hgo trivial
  | inside name files count before after h ih =>
    have hchild := ih (AllCalm.calm hv)
    obtain ⟨hold, hnew⟩ := h.not_merged
    simp [cut, outcome, uncounted, hchild, hold, hnew]
  | merge name files count before after node =>
    have hcalm := Calm.cut _ hv
    simp only [cut, cuts_eq, List.map_append, List.map_cons] at hcalm ⊢
    exact (Step.merge name files count (before.map cut) (after.map cut) node).outcome_eq hgo hcalm
  | finish name files count nodes =>
    rw [cut, cut, cuts_eq, cut_merged]
    exact (Step.finish name files count nodes).outcome_eq hgo hv
  | notice name files count before after sent => exact (AllCalm.calm hv).elim
  | insideLeaving files before after h ih => exact hv.elim
  | leave files children h => exact hv.elim

theorem Step.outcome_sublist (hgo : ∀ t, interrupts t = false)
    (h : Step interrupts cancelled v action v') (hv : v.Calm) :
    v'.outcome.allFiles.Sublist v.outcome.allFiles := by
  have hkeep : ∀ {u u' : Visit} {a : Action}, Step interrupts false u a u' → u.Calm →
      u'.outcome.allFiles.Sublist u.outcome.allFiles := by
    intro u u' a hstep hu
    have heq := hstep.outcome_eq hgo hu
    exact heq ▸ List.Sublist.refl _
  induction h with
  | skip name survey h => simp [outcome, DirNode.allFiles, DirNode.allFilesOf]
  | list name survey h => exact hkeep (.list name survey rfl) hv
  | send name sent left subdirs t h => exact hkeep (.send name sent left subdirs t h) hv
  | interrupt name sent left subdirs t h => rw [hgo t] at h; cases h
  | descend name sent subdirs => exact hkeep (.descend name sent subdirs) hv
  | inside name files count before after h ih =>
    have hchild := ih (AllCalm.calm hv)
    simp only [outcome, outcomes_eq, DirNode.allFiles, DirNode.allFilesOf_eq, List.map_append,
      List.map_cons, List.flatMap_append, List.flatMap_cons]
    exact ((hchild.append_right _).append_left _).append_left _
  | merge name files count before after node =>
    exact hkeep (.merge name files count before after node) hv
  | finish name files count nodes => exact hkeep (.finish name files count nodes) hv
  | notice name files count before after sent => exact (AllCalm.calm hv).elim
  | insideLeaving files before after h ih => exact hv.elim
  | leave files children h => exact hv.elim

mutual

/-- How many directories have been listed by visits that have not ended, here and below. -/
def underway : Visit → Nat
  | waiting _ _ => 0
  | sending _ _ _ _ => 1
  | joining _ _ _ children => underwayAll children + 1
  | returned _ => 0
  | merged _ => 0
  | leaving _ children => underwayAll children + 1
  | raised _ => 0

def underwayAll : List Visit → Nat
  | [] => 0
  | v :: vs => v.underway + underwayAll vs

end

@[simp] theorem underwayAll_append (us vs : List Visit) :
    underwayAll (us ++ vs) = underwayAll us + underwayAll vs := by
  induction us with
  | nil => simp [underwayAll]
  | cons u us ih => rw [List.cons_append, underwayAll, underwayAll, ih]; omega

@[simp] theorem underwayAll_start (surveys : List Survey) :
    underwayAll (surveys.map start) = 0 := by
  induction surveys with
  | nil => rfl
  | cons s ss ih => rw [List.map_cons, underwayAll, ih]; rfl

theorem Step.underway_le (h : Step interrupts true v action v') : v'.underway ≤ v.underway := by
  induction h with
  | list name survey h => cases h
  | inside name files count before after h ih =>
    simp only [underway, underwayAll_append, underwayAll]
    omega
  | insideLeaving files before after h ih =>
    simp only [underway, underwayAll_append, underwayAll]
    omega
  | _ => simp [underway, underwayAll]

end Visit

namespace Traversal

open Relation

variable {interrupts : Task → Bool} {t u : Traversal} {full node : DirNode}

/-- A scan that nothing has broken off, cancelled or not: its counts are right, it has handed on
the files of its visits, and it finds no others than those of the full tree. -/
structure Within (full : DirNode) (t : Traversal) : Prop where
  calm : t.visit.Calm
  notMerged : t.visit.isMerged = false
  sound : t.visit.Sound
  dispatched : t.dispatched.Perm t.visit.sent
  files : t.visit.outcome.allFiles.Sublist full.allFiles

theorem within_start (name : String) (survey : Survey) (cancelled : Bool) :
    Within (survey.tree name) { visit := .waiting name survey, cancelled } :=
  ⟨trivial, rfl, trivial, .refl _, .refl _⟩

theorem Within.step (hgo : ∀ t, interrupts t = false) (h : t.Within full)
    (hstep : Step interrupts t u) : u.Within full := by
  rcases hstep with ⟨action, visit, hvisit, rfl⟩ | rfl
  · refine ⟨hvisit.calm hgo h.calm, hvisit.not_merged.2, hvisit.sound h.sound, ?_,
      (hvisit.outcome_sublist hgo h.calm).trans h.files⟩
    have hmore : (t.dispatched ++ action.tasks).Perm (t.visit.sent ++ action.tasks) :=
      h.dispatched.append_right _
    exact hmore.trans hvisit.sent_perm.symm
  · exact ⟨h.calm, h.notMerged, h.sound, h.dispatched, h.files⟩

theorem Within.reaches (hgo : ∀ t, interrupts t = false) (h : t.Within full)
    (hsteps : Reaches interrupts t u) : u.Within full := by
  induction hsteps with
  | refl => exact h
  | tail _ hstep ih => exact ih.step hgo hstep

/-- Once a scan is cancelled, the tree of what has begun by then is what it leads to. -/
theorem Within.cut_outcome (hgo : ∀ t, interrupts t = false) (h : t.Within full)
    (hcancelled : t.cancelled = true) (hsteps : Reaches interrupts t u) :
    u.cancelled = true ∧ u.visit.cut.outcome = t.visit.cut.outcome := by
  unfold Reaches at hsteps
  induction hsteps with
  | refl => exact ⟨hcancelled, rfl⟩
  | @tail v w hsteps hstep ih =>
    have hv := h.reaches hgo hsteps
    rcases hstep with ⟨action, visit, hvisit, rfl⟩ | rfl
    · rw [ih.1] at hvisit
      exact ⟨by simp [after, ih.1], (hvisit.cut_outcome hgo hv.calm).trans ih.2⟩
    · exact ⟨rfl, ih.2⟩

end Traversal

/-- The books of a scan: its counts are right, each of its files was handed on, once, and its files
are among those of the full tree. -/
structure DirNode.Books (full node : DirNode) (dispatched : List Task) : Prop where
  counted : node.Counted
  handedOn : dispatched.Perm node.allFiles
  once : (dispatched.map Task.path).Nodup
  among : node.allFiles.Sublist full.allFiles

theorem Traversal.Within.books {t : Traversal} {full node : DirNode} (h : t.Within full)
    (hfull : (full.allFiles.map Task.path).Nodup) (hvisit : t.visit = .returned node) :
    full.Books node t.dispatched := by
  obtain ⟨-, -, hsound, hdispatched, hfiles⟩ := h
  rw [hvisit] at hsound hdispatched hfiles
  refine ⟨hsound, hdispatched, ?_, hfiles⟩
  exact (hdispatched.map Task.path).nodup_iff.mpr (hfull.sublist (hfiles.map Task.path))

namespace Scan

open Relation

theorem run_returns {h : Host} {request : ScanRequest} {children : List (String × Entry)}
    {glob : Glob} {reply : Task → Reply}
    (hdir : h.entry? (h.absolute request.root) = some (.dir children))
    (hglob : Glob.compile? request.pattern = some glob) (htaken : ∀ t, reply t ≠ .interrupt)
    (cancelled : Bool) :
    let root := h.absolute request.root
    let survey := Survey.ofEntry h ⟨root, glob, request.recurse⟩ root (.dir children)
    ∃ node s t, run h request reply cancelled = .ok ⟨some node, s⟩ ∧
      Traversal.Reaches (fun _ => false) { visit := .waiting root survey, cancelled } t ∧
      t.visit = .returned node ∧ t.dispatched = s.dispatched := by
  intro root survey
  obtain ⟨⟨tree, s⟩, v, hrun, hends, hreaches⟩ := exists_run rfl hdir hglob reply cancelled
  have hbreaks : breaksOff reply = fun _ => false := by
    funext t
    simp [breaksOff, htaken t]
  rw [hbreaks] at hreaches
  have hcalm := ((Traversal.within_start root survey cancelled).reaches (fun _ => rfl) hreaches).calm
  cases tree with
  | none =>
    obtain ⟨sent, rfl⟩ : ∃ sent, v = .raised sent := hends
    exact hcalm.elim
  | some node => exact ⟨node, s, _, hrun, hreaches, hends, rfl⟩

/-- Cancelled at any moment, a scan ends with balanced books in every order of its visits. From
that moment on no directory is listed, and what is returned is the tree of what had begun. -/
theorem schedules_keep_books {h : Host} {request : ScanRequest} {children : List (String × Entry)}
    {glob : Glob} (hcwd : Path.isAbsolute h.cwd = true)
    (hdir : h.entry? (h.absolute request.root) = some (.dir children))
    (hglob : Glob.compile? request.pattern = some glob) (hwell : (Entry.dir children).WellNamed)
    (cancelled : Bool) :
    let root := h.absolute request.root
    let survey := Survey.ofEntry h ⟨root, glob, request.recurse⟩ root (.dir children)
    let start : Traversal := { visit := .waiting root survey, cancelled }
    let full := Walk.tree h glob request.recurse root [] root (.dir children)
    (∃ s, run h request (fun _ => .go) false = .ok ⟨some full, s⟩) ∧
    (∀ t, Traversal.Reaches (fun _ => false) start t →
      (∃ node, t.visit = .returned node ∧ full.Books node t.dispatched) ∨
        ∃ u, Traversal.Advance (fun _ => false) t u) ∧
    (∀ schedule : Nat → Traversal,
      ¬ ∀ n, Traversal.Advance (fun _ => false) (schedule n) (schedule (n + 1))) ∧
    (∀ t u, Traversal.Reaches (fun _ => false) start t → t.cancelled = true →
      Traversal.Reaches (fun _ => false) t u →
      (∀ v, Traversal.Advance (fun _ => false) u v → v.visit.underway ≤ u.visit.underway) ∧
        ∀ node, u.visit = .returned node → node = t.visit.cut.outcome) ∧
    ∀ reply : Task → Reply, (∀ t, reply t ≠ .interrupt) →
      ∃ node s, run h request reply cancelled = .ok ⟨some node, s⟩ ∧ full.Books node s.dispatched := by
  intro root survey start full
  have htree : survey.tree root = full := tree_survey hcwd glob request.recurse request.root hwell
  have hstart : Traversal.Within full start := htree ▸ Traversal.within_start root survey cancelled
  have hpaths : (full.allFiles.map Task.path).Nodup :=
    nodup_paths_tree hcwd glob request.recurse request.root hwell
  refine ⟨?_, ?_, Traversal.not_endless, ?_, ?_⟩
  · obtain ⟨s, hrun⟩ := run_go rfl hdir hglob fun _ => rfl
    rw [htree] at hrun
    exact ⟨s, hrun⟩
  · intro t ht
    have hwithin := hstart.reaches (fun _ => rfl) ht
    rcases Visit.returned_or_step (fun _ => false) t.cancelled hwithin.calm hwithin.notMerged with
      ⟨node, hnode⟩ | ⟨action, v, hstep⟩
    · exact Or.inl ⟨node, hnode, hwithin.books hpaths hnode⟩
    · exact Or.inr ⟨_, action, v, hstep, rfl⟩
  · intro t u ht hcancelled hu
    have hwithin := hstart.reaches (fun _ => rfl) ht
    obtain ⟨hstill, hcut⟩ := hwithin.cut_outcome (fun _ => rfl) hcancelled hu
    refine ⟨?_, ?_⟩
    · rintro v ⟨action, visit, hstep, rfl⟩
      rw [hstill] at hstep
      exact hstep.underway_le
    · intro node hnode
      rw [hnode] at hcut
      exact hcut
  · intro reply htaken
    obtain ⟨node, s, t, hrun, ht, hvisit, hdispatched⟩ := run_returns hdir hglob htaken cancelled
    exact ⟨node, s, hrun, hdispatched ▸ (hstart.reaches (fun _ => rfl) ht).books hpaths hvisit⟩

/-- The first file is taken and the scan is cancelled with it: the directory below is cut off. -/
theorem schedules_keep_books_cut_short :
    let children : List (String × Entry) :=
      [("sub", .dir [("g.txt", .file [] 0)]), ("f.txt", .file [] 0)]
    let h : Host :=
      { root := .dir [("d", .dir children)], cwd := "/d", environment := ⟨[], [], "/"⟩ }
    let request : ScanRequest := { root := ".", pattern := "*.txt" }
    ∃ full node s s', run h request (fun _ => .go) false = .ok ⟨some full, s⟩ ∧ full.count = 2 ∧
      run h request (fun _ => .cancel) false = .ok ⟨some node, s'⟩ ∧ node.count = 1 ∧
      full.Books node s'.dispatched := by
  intro children h request
  have hroot : h.absolute request.root = "/d" := by decide +kernel
  have hdir : h.entry? (h.absolute request.root) = some (.dir children) := by
    rw [hroot]
    rfl
  have hwell : (Entry.dir children).WellNamed := by
    simp [children, Entry.WellNamed, Entry.AllWellNamed]
    decide +kernel
  have hglob : Glob.compile? request.pattern =
      some ⟨[.anyText, .char '.', .char 't', .char 'x', .char 't']⟩ := by decide +kernel
  obtain ⟨⟨s, hrun⟩, -, -, -, hreply⟩ :=
    @schedules_keep_books h request _ _ (by decide +kernel) hdir hglob hwell false
  obtain ⟨node, s', hrun', hbooks⟩ := hreply (fun _ => .cancel) fun _ h => by cases h
  have hcount : ∀ {reply : Task → Reply} {d : DirNode} {s : ScanState},
      run h request reply false = .ok ⟨some d, s⟩ →
        (run h request reply false).toOption.bind (fun o => o.tree.map DirNode.count) = some d.count := by
    intro reply d s hr
    rw [hr]
    rfl
  refine ⟨_, node, s, s', hrun, ?_, hrun', ?_, hbooks⟩
  · exact Option.some.inj ((hcount hrun).symm.trans (by decide +kernel))
  · exact Option.some.inj ((hcount hrun').symm.trans (by decide +kernel))

end Scan
end FileSweep
