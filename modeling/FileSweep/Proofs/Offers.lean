import FileSweep.Proofs.Sequential
import Mathlib.Data.List.Perm.Subperm

/-! The files that a scan offers to their receiver. At a file at which the receiver breaks off, the
directory is left: the files behind it are not offered, nor is any file below. So from every moment
of a scan there are only so many files ahead, and each step offers one of these, or gives some up. -/
namespace FileSweep

theorem not_mem_of_nodup_append {α : Type} {xs ys : List α} {x : α} (h : (xs ++ ys).Nodup)
    (hx : x ∈ ys) : x ∉ xs := fun hxs => (List.nodup_append.mp h).2.2 x hxs x hx rfl

theorem nodup_map_of_subperm {α β : Type} {f : α → β} {xs ys : List α} (h : xs.Subperm ys)
    (hnodup : (ys.map f).Nodup) : (xs.map f).Nodup := by
  obtain ⟨zs, hperm, hsublist⟩ := h
  exact (hperm.map f).nodup_iff.mp (hnodup.sublist (hsublist.map f))

namespace DirNode

variable {interrupts : Task → Bool} {root d : DirNode} {depth : Nat} {t : Task}

/-- The files that are offered of a directory whose own files are given, `below` being those that
its subdirectories offer: the receiver may break off before these are entered. -/
def offeredFrom (interrupts : Task → Bool) (below : List Task) : List Task → List Task
  | [] => below
  | t :: ts => if interrupts t then [t] else t :: offeredFrom interrupts below ts

mutual

/-- The files that are offered of a tree, here and below. -/
def offered (interrupts : Task → Bool) : DirNode → List Task
  | ⟨_, files, dirs, _⟩ => offeredFrom interrupts (offeredOf interrupts dirs) files

def offeredOf (interrupts : Task → Bool) : List DirNode → List Task
  | [] => []
  | d :: ds => offered interrupts d ++ offeredOf interrupts ds

end

theorem offered_eq (interrupts : Task → Bool) (d : DirNode) :
    d.offered interrupts = offeredFrom interrupts (offeredOf interrupts d.dirs) d.files := by
  cases d
  rfl

theorem allFiles_eq (d : DirNode) : d.allFiles = d.files ++ allFilesOf d.dirs := by
  cases d
  rfl

theorem offeredFrom_sublist (below files : List Task) :
    (offeredFrom interrupts below files).Sublist (files ++ below) := by
  induction files with
  | nil => exact List.Sublist.refl _
  | cons t files ih =>
    rw [offeredFrom]
    split
    · exact List.singleton_sublist.mpr List.mem_cons_self
    · exact ih.cons_cons t

/-- Nothing is offered behind a file at which the receiver breaks off. -/
theorem offeredFrom_sublist_of_interrupts (below before after : List Task)
    (ht : interrupts t = true) :
    (offeredFrom interrupts below (before ++ t :: after)).Sublist (before ++ [t]) := by
  induction before with
  | nil =>
    rw [List.nil_append, offeredFrom, if_pos ht]
    exact List.Sublist.refl _
  | cons u before ih =>
    rw [List.cons_append, offeredFrom]
    split
    · exact List.singleton_sublist.mpr List.mem_cons_self
    · exact ih.cons_cons u

theorem offeredFrom_of_go (below : List Task) {files : List Task}
    (hgo : ∀ t ∈ files, interrupts t = false) :
    offeredFrom interrupts below files = files ++ below := by
  induction files with
  | nil => rfl
  | cons t files ih =>
    rw [offeredFrom, if_neg (by simp [hgo t]), ih fun u hu => hgo u (List.mem_cons_of_mem t hu)]
    rfl

theorem mem_offeredFrom (below : List Task) {files : List Task}
    (honly : ∀ u, interrupts u = true → u = t) (ht : t ∈ files) :
    t ∈ offeredFrom interrupts below files := by
  induction files with
  | nil => cases ht
  | cons u files ih =>
    rw [offeredFrom]
    split
    · rename_i hu
      exact List.mem_singleton.mpr (honly u hu).symm
    · rcases List.mem_cons.mp ht with rfl | ht
      · exact List.mem_cons_self
      · exact List.mem_cons_of_mem u (ih ht)

mutual

theorem offered_sublist (interrupts : Task → Bool) :
    (d : DirNode) → (d.offered interrupts).Sublist d.allFiles
  | ⟨_, files, dirs, _⟩ =>
    (offeredFrom_sublist _ files).trans ((offeredOf_sublist interrupts dirs).append_left files)

theorem offeredOf_sublist (interrupts : Task → Bool) :
    (ds : List DirNode) → (offeredOf interrupts ds).Sublist (allFilesOf ds)
  | [] => List.Sublist.refl _
  | d :: ds => (offered_sublist interrupts d).append (offeredOf_sublist interrupts ds)

end

theorem allFilesOf_append (ds es : List DirNode) :
    allFilesOf (ds ++ es) = allFilesOf ds ++ allFilesOf es := by
  simp only [allFilesOf_eq, List.flatMap_append]

theorem offeredOf_append (interrupts : Task → Bool) (ds es : List DirNode) :
    offeredOf interrupts (ds ++ es) = offeredOf interrupts ds ++ offeredOf interrupts es := by
  induction ds with
  | nil => rfl
  | cons d ds ih => simp [offeredOf, ih]

theorem Holds.offered_sublist (interrupts : Task → Bool) (h : root.Holds depth d) :
    ∃ front back, root.allFiles = front ++ (d.allFiles ++ back) ∧
      (root.offered interrupts).Sublist (front ++ (d.offered interrupts ++ back)) := by
  induction h with
  | root d => exact ⟨[], [], by simp, by simp⟩
  | @deeper d c e depth hc he ih =>
    obtain ⟨front, back, hfiles, hoffered⟩ := ih
    obtain ⟨before, after, hdirs⟩ := List.append_of_mem hc
    refine ⟨d.files ++ allFilesOf before ++ front, back ++ allFilesOf after, ?_, ?_⟩
    · rw [allFiles_eq, hdirs, allFilesOf_append, allFilesOf, hfiles]
      simp
    · have hbelow := ((offeredOf_sublist interrupts before).append
        (hoffered.append (offeredOf_sublist interrupts after))).append_left d.files
      rw [offered_eq]
      refine (offeredFrom_sublist _ _).trans ?_
      rw [hdirs, offeredOf_append, offeredOf]
      simpa using hbelow

/-- Of the files of a directory, neither those behind one at which the receiver breaks off nor those
below the directory are offered. -/
theorem Holds.not_mem_offered {before after : List Task} (h : root.Holds depth d)
    (hnodup : root.allFiles.Nodup) (hfiles : d.files = before ++ t :: after)
    (ht : interrupts t = true) : ∀ u ∈ after ++ allFilesOf d.dirs, u ∉ root.offered interrupts := by
  intro u hu hoffered
  obtain ⟨front, back, hall, hsublist⟩ := h.offered_sublist interrupts
  have hhere : (d.offered interrupts).Sublist (before ++ [t]) := by
    rw [offered_eq, hfiles]
    exact offeredFrom_sublist_of_interrupts _ before after ht
  have hmem : u ∈ front ++ (before ++ [t] ++ back) :=
    (hsublist.trans ((hhere.append_right back).append_left front)).subset hoffered
  have hsplit : root.allFiles.Perm ((front ++ (before ++ [t] ++ back)) ++
      (after ++ allFilesOf d.dirs)) := by
    have hback : (after ++ allFilesOf d.dirs ++ back).Perm (back ++ (after ++ allFilesOf d.dirs)) :=
      List.perm_append_comm
    rw [hall, allFiles_eq, hfiles]
    simpa using (hback.append_left (front ++ (before ++ [t])))
  exact not_mem_of_nodup_append (hsplit.nodup_iff.mp hnodup) hu hmem

theorem Holds.not_mem_files (h : root.Holds (depth + 1) d) (hnodup : root.allFiles.Nodup)
    (ht : t ∈ d.files) : t ∉ root.files := by
  obtain ⟨c, hc, hd⟩ : ∃ c ∈ root.dirs, Holds c depth d := by
    cases h with
    | deeper hc hd => exact ⟨_, hc, hd⟩
  obtain ⟨front, back, hfiles, -⟩ := hd.offered_sublist fun _ => false
  obtain ⟨before, after, hdirs⟩ := List.append_of_mem hc
  have hbelow : t ∈ allFilesOf root.dirs := by
    rw [hdirs, allFilesOf_append, allFilesOf, hfiles, allFiles_eq]
    simp [ht]
  rw [allFiles_eq] at hnodup
  exact not_mem_of_nodup_append hnodup hbelow

theorem Holds.mem_offered (h : root.Holds depth d) (hnodup : root.allFiles.Nodup)
    (honly : ∀ u, interrupts u = true → u = t) (ht : t ∈ d.files) :
    t ∈ root.offered interrupts := by
  induction h with
  | root d =>
    rw [offered_eq]
    exact mem_offeredFrom _ honly ht
  | @deeper d c e depth hc he ih =>
    have hgo : ∀ u ∈ d.files, interrupts u = false := by
      intro u hu
      by_contra hbreaks
      obtain rfl := honly u (by simpa using hbreaks)
      exact (Holds.deeper hc he).not_mem_files hnodup ht hu
    obtain ⟨before, after, hdirs⟩ := List.append_of_mem hc
    rw [allFiles_eq, hdirs, allFilesOf_append, allFilesOf] at hnodup
    have hchild : c.allFiles.Nodup :=
      (List.nodup_append.mp (List.nodup_append.mp (List.nodup_append.mp hnodup).2.1).2.1).1
    rw [offered_eq, offeredFrom_of_go _ hgo, hdirs, offeredOf_append, offeredOf]
    simp [ih hchild ht]

end DirNode

namespace Visit

variable {interrupts : Task → Bool} {cancelled : Bool} {v v' : Visit} {action : Action}

mutual

/-- The files that a visit has still to offer, here and below, unless it is cancelled. -/
def ahead (interrupts : Task → Bool) : Visit → List Task
  | waiting name survey => (survey.tree name).offered interrupts
  | sending _ _ left subdirs =>
    DirNode.offeredFrom interrupts (DirNode.offeredOf interrupts (Survey.trees subdirs)) left
  | joining _ _ _ children => aheadAll interrupts children
  | leaving _ children => aheadAll interrupts children
  | returned _ => []
  | merged _ => []
  | raised _ => []

def aheadAll (interrupts : Task → Bool) : List Visit → List Task
  | [] => []
  | v :: vs => v.ahead interrupts ++ aheadAll interrupts vs

end

@[simp] theorem aheadAll_append (us vs : List Visit) :
    aheadAll interrupts (us ++ vs) = aheadAll interrupts us ++ aheadAll interrupts vs := by
  induction us with
  | nil => rfl
  | cons u us ih => simp [aheadAll, ih]

@[simp] theorem aheadAll_start (surveys : List Survey) :
    aheadAll interrupts (surveys.map start) =
      DirNode.offeredOf interrupts (Survey.trees surveys) := by
  induction surveys with
  | nil => rfl
  | cons s ss ih => rw [List.map_cons, aheadAll, ih, Survey.trees, DirNode.offeredOf]; rfl

theorem ahead_of_ended (h : v.ended = true) : v.ahead interrupts = [] := by
  cases v with
  | returned node => rfl
  | merged node => rfl
  | raised sent => rfl
  | waiting name survey => cases h
  | sending name sent left subdirs => cases h
  | joining name files count children => cases h
  | leaving files children => cases h

theorem aheadAll_of_ended {vs : List Visit} (h : ∀ v ∈ vs, v.ended = true) :
    aheadAll interrupts vs = [] := by
  induction vs with
  | nil => rfl
  | cons v vs ih =>
    rw [aheadAll, ahead_of_ended (h v (by simp)), ih fun u hu => h u (List.mem_cons_of_mem v hu)]
    rfl

theorem Step.calm_before (h : Step interrupts cancelled v action v') (hv : v'.Calm) : v.Calm := by
  induction h with
  | inside name files count before after h ih => exact AllCalm.replace hv ih
  | merge name files count before after node => exact AllCalm.replace hv fun _ => trivial
  | finish name files count nodes =>
    refine (allCalm_iff _).mpr fun u hu => ?_
    obtain ⟨node, -, rfl⟩ := List.mem_map.mp hu
    trivial
  | notice name files count before after sent => exact hv.elim
  | insideLeaving files before after h ih => exact hv
  | leave files children h => exact hv
  | _ => trivial

/-- What a step does to the files ahead: it hands on some of them and gives some up, `lost` being
the latter. None is given up in a scan that is not cancelled as long as nothing breaks off; and
what breaks off does it at a file that is not offered again. -/
structure Spends (interrupts : Task → Bool) (cancelled : Bool) (v : Visit) (action : Action)
    (v' : Visit) (lost : List Task) : Prop where
  perm : (v.ahead interrupts).Perm (action.tasks ++ v'.ahead interrupts ++ lost)
  keeps : cancelled = false → v'.Calm → lost = []
  broken : v.Calm → v'.Calm ∨ ∃ t ∈ lost, interrupts t = true

theorem Spends.of_eq (h : v.ahead interrupts = action.tasks ++ v'.ahead interrupts)
    (hcalm : v.Calm → v'.Calm) : Spends interrupts cancelled v action v' [] where
  perm := by rw [h, List.append_nil]
  keeps := fun _ _ => rfl
  broken := fun hv => Or.inl (hcalm hv)

theorem Spends.perm_inside {lost : List Task} (h : Spends interrupts cancelled v action v' lost)
    (before after : List Visit) :
    (aheadAll interrupts (before ++ v :: after)).Perm
      (action.tasks ++ aheadAll interrupts (before ++ v' :: after) ++ lost) := by
  have hswap : (action.tasks ++ v'.ahead interrupts ++ lost ++ aheadAll interrupts after).Perm
      (action.tasks ++ v'.ahead interrupts ++ aheadAll interrupts after ++ lost) := by
    rw [List.append_assoc _ lost, List.append_assoc _ (aheadAll interrupts after)]
    exact List.perm_append_comm.append_left _
  have hfront : (aheadAll interrupts before ++ (action.tasks ++ (v'.ahead interrupts ++
        aheadAll interrupts after))).Perm
      (action.tasks ++ (aheadAll interrupts before ++ (v'.ahead interrupts ++
        aheadAll interrupts after))) := List.perm_append_comm_assoc _ _ _
  have hhere := ((h.perm.append_right (aheadAll interrupts after)).trans hswap).append_left
    (aheadAll interrupts before)
  rw [aheadAll_append, aheadAll_append, aheadAll, aheadAll]
  refine hhere.trans ?_
  have hlast := hfront.append_right lost
  simpa only [List.append_assoc] using hlast

theorem Step.spends (h : Step interrupts cancelled v action v') :
    ∃ lost, Spends interrupts cancelled v action v' lost := by
  induction h with
  | skip name survey h =>
    refine ⟨(survey.tree name).offered interrupts, ?_, fun hgoing => ?_, fun _ => Or.inl trivial⟩
    · exact List.Perm.refl _
    · rw [h] at hgoing; cases hgoing
  | list name survey h =>
    obtain ⟨path, refused, files, subdirs⟩ := survey
    exact ⟨[], .of_eq rfl fun _ => trivial⟩
  | send name sent left subdirs t h =>
    refine ⟨[], .of_eq ?_ fun _ => trivial⟩
    rw [ahead, DirNode.offeredFrom, if_neg (by simp [h])]
    rfl
  | interrupt name sent left subdirs t h =>
    refine ⟨[t], ?_, fun _ hcalm => hcalm.elim, fun _ => Or.inr ⟨t, List.mem_cons_self, h⟩⟩
    rw [ahead, DirNode.offeredFrom, if_pos h]
    exact List.Perm.refl _
  | descend name sent subdirs =>
    refine ⟨[], .of_eq ?_ fun _ => allCalm_start subdirs⟩
    rw [ahead, ahead, aheadAll_start]
    rfl
  | inside name files count before after h ih =>
    obtain ⟨lost, hlost⟩ := ih
    refine ⟨lost, hlost.perm_inside before after, ?_, ?_⟩
    · exact fun hgoing hcalm => hlost.keeps hgoing (AllCalm.calm hcalm)
    · intro hcalm
      exact (hlost.broken (AllCalm.calm hcalm)).imp (fun hchild => AllCalm.replace hcalm fun _ => hchild) id
  | merge name files count before after node =>
    exact ⟨[], .of_eq (by simp [ahead, aheadAll, Action.tasks])
      fun hcalm => AllCalm.replace hcalm fun _ => trivial⟩
  | finish name files count nodes =>
    refine ⟨[], .of_eq ?_ fun _ => trivial⟩
    refine aheadAll_of_ended fun u hu => ?_
    obtain ⟨node, -, rfl⟩ := List.mem_map.mp hu
    rfl
  | notice name files count before after sent =>
    exact ⟨[], .of_eq rfl fun hcalm => (AllCalm.calm hcalm).elim⟩
  | insideLeaving files before after h ih =>
    obtain ⟨lost, hlost⟩ := ih
    exact ⟨lost, hlost.perm_inside before after, fun _ hcalm => hcalm.elim, fun hcalm => hcalm.elim⟩
  | leave files children h => exact ⟨[], .of_eq (aheadAll_of_ended h) fun hcalm => hcalm.elim⟩

theorem Step.handed (h : Step interrupts cancelled v action v') :
    ∀ t ∈ action.tasks, interrupts t = false := by
  induction h with
  | send name sent left subdirs t h => simpa [Action.tasks] using h
  | inside name files count before after h ih => exact ih
  | insideLeaving files before after h ih => exact ih
  | _ => simp [Action.tasks]

/-- Where no file ahead makes the receiver break off, a step is one that would be made with a
receiver that never does. -/
theorem Step.of_go (h : Step interrupts cancelled v action v')
    (hgo : ∀ t ∈ v.ahead interrupts, interrupts t = false) :
    Step (fun _ => false) cancelled v action v' := by
  induction h with
  | skip name survey h => exact .skip name survey h
  | list name survey h => exact .list name survey h
  | send name sent left subdirs t h => exact .send name sent left subdirs t rfl
  | interrupt name sent left subdirs t h =>
    have hpass := hgo t (by rw [ahead, DirNode.offeredFrom, if_pos h]; exact List.mem_cons_self)
    rw [h] at hpass
    cases hpass
  | descend name sent subdirs => exact .descend name sent subdirs
  | inside name files count before after h ih =>
    exact .inside name files count before after (ih fun t ht => hgo t (by simp [ahead, aheadAll, ht]))
  | merge name files count before after node => exact .merge name files count before after node
  | finish name files count nodes => exact .finish name files count nodes
  | notice name files count before after sent => exact .notice name files count before after sent
  | insideLeaving files before after h ih =>
    exact .insideLeaving files before after (ih fun t ht => hgo t (by simp [ahead, aheadAll, ht]))
  | leave files children h => exact .leave files children h

end Visit
end FileSweep
