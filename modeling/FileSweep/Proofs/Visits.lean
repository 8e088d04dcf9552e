import FileSweep.Schedule.Visit

/-! What every step of a visit keeps, whatever the schedule: the counts agree with the files,
and the files handed on are those of the visit. -/
namespace FileSweep

theorem forall_mem_replace {α : Type} {P : α → Prop} {before after : List α} {u u' : α}
    (h : ∀ w ∈ before ++ u :: after, P w) (hu : P u → P u') :
    ∀ w ∈ before ++ u' :: after, P w := by
  simp only [List.mem_append, List.mem_cons] at h ⊢
  rintro w (hw | rfl | hw)
  · exact h w (Or.inl hw)
  · exact hu (h u (Or.inr (Or.inl rfl)))
  · exact h w (Or.inr (Or.inr hw))

namespace DirNode

mutual

/-- Every count is the number of files below it. -/
def Counted : DirNode → Prop
  | ⟨_, files, dirs, count⟩ =>
    count = files.length + (allFilesOf dirs).length ∧ AllCounted dirs

def AllCounted : List DirNode → Prop
  | [] => True
  | d :: ds => d.Counted ∧ AllCounted ds

end

theorem Counted.count_eq {d : DirNode} (h : d.Counted) : d.count = d.allFiles.length := by
  obtain ⟨name, files, dirs, count⟩ := d
  simp only [Counted, allFiles, List.length_append, Int.natCast_add] at h ⊢
  exact h.1

@[simp] theorem counted_empty (name : String) : Counted { name } := by
  simp [Counted, AllCounted, allFilesOf]

theorem allCounted_iff (ds : List DirNode) : AllCounted ds ↔ ∀ d ∈ ds, d.Counted := by
  induction ds with
  | nil => simp [AllCounted]
  | cons d ds ih => simp [AllCounted, ih]

theorem allFilesOf_eq (ds : List DirNode) : allFilesOf ds = ds.flatMap allFiles := by
  induction ds with
  | nil => rfl
  | cons d ds ih => rw [allFilesOf, ih, List.flatMap_cons]

/-- A directory of a tree, so many levels below its root. -/
inductive Holds : DirNode → Nat → DirNode → Prop
  | root (d : DirNode) : Holds d 0 d
  | deeper {d c e : DirNode} {depth : Nat} (hc : c ∈ d.dirs) (he : Holds c depth e) :
      Holds d (depth + 1) e

def countOf : List DirNode → Int
  | [] => 0
  | d :: ds => d.count + countOf ds

@[simp] theorem countOf_nil : countOf [] = 0 := rfl

theorem AllCounted.countOf_eq {ds : List DirNode} (h : AllCounted ds) :
    countOf ds = (allFilesOf ds).length := by
  induction ds with
  | nil => rfl
  | cons d ds ih =>
    rw [countOf, ih h.2, h.1.count_eq, allFilesOf, List.length_append, Int.natCast_add]

end DirNode

namespace Visit

variable {interrupts : Task → Bool} {cancelled : Bool} {v v' : Visit} {action : Action}

theorem sentAll_eq (vs : List Visit) : sentAll vs = vs.flatMap sent := by
  induction vs with
  | nil => rfl
  | cons v vs ih => rw [sentAll, ih, List.flatMap_cons]

@[simp] theorem sentAll_append (us vs : List Visit) :
    sentAll (us ++ vs) = sentAll us ++ sentAll vs := by
  simp only [sentAll_eq, List.flatMap_append]

@[simp] theorem sentAll_start (surveys : List Survey) : sentAll (surveys.map start) = [] := by
  simp [sentAll_eq, start, sent, List.flatMap_map]

@[simp] theorem sentAll_merged (nodes : List DirNode) :
    sentAll (nodes.map merged) = DirNode.allFilesOf nodes := by
  simp only [sentAll_eq, DirNode.allFilesOf_eq, List.flatMap_map, sent]

/-- A step adds to the files of a visit those that it hands on. -/
theorem Step.sent_perm (h : Step interrupts cancelled v action v') :
    v'.sent.Perm (v.sent ++ action.tasks) := by
  have hinside : ∀ (files front more back : List Task) (u u' : Visit),
      u'.sent.Perm (u.sent ++ more) →
      (files ++ (front ++ (u'.sent ++ back))).Perm
        (files ++ (front ++ (u.sent ++ back)) ++ more) := by
    intro files front more back u u' hu
    have hback : (u'.sent ++ back).Perm (u.sent ++ back ++ more) := by
      have hswap : (more ++ back).Perm (back ++ more) := List.perm_append_comm
      have hfirst := hu.append_right back
      rw [List.append_assoc] at hfirst ⊢
      exact hfirst.trans (hswap.append_left u.sent)
    rw [List.append_assoc, List.append_assoc]
    exact (hback.append_left front).append_left files
  induction h with
  | skip name survey h => simp [sent, Action.tasks, DirNode.allFiles, DirNode.allFilesOf]
  | list name survey h => simp [sent, Action.tasks]
  | send name sent' left subdirs t h => simp [sent, Action.tasks]
  | interrupt name sent' left subdirs t h => simp [sent, Action.tasks]
  | descend name sent' subdirs => simp [sent, Action.tasks]
  | inside name files count before after h ih =>
    simp only [sent, sentAll_append, sentAll]
    exact hinside files _ _ _ _ _ ih
  | merge name files count before after node => simp [sent, sentAll, Action.tasks]
  | finish name files count nodes => simp [sent, DirNode.allFiles, Action.tasks]
  | notice name files count before after sent' => simp [sent, Action.tasks]
  | insideLeaving files before after h ih =>
    simp only [sent, sentAll_append, sentAll]
    exact hinside files _ _ _ _ _ ih
  | leave files children h => simp [sent, Action.tasks]

def isMerged : Visit → Bool
  | merged _ => true
  | _ => false

/-- Counting is done by the visit above: a visit does not do it by a step of its own, and
does nothing after it. -/
theorem Step.not_merged (h : Step interrupts cancelled v action v') :
    v.isMerged = false ∧ v'.isMerged = false := by
  cases h <;> exact ⟨rfl, rfl⟩

def counted : Visit → List Task
  | merged node => node.allFiles
  | _ => []

theorem counted_of_not_merged (h : v.isMerged = false) : v.counted = [] := by
  cases v with
  | merged node => simp [isMerged] at h
  | _ => rfl

mutual

/-- Every count made so far agrees with the files that it stands for. -/
def Sound : Visit → Prop
  | joining _ files count children =>
    count = files.length + (children.flatMap counted).length ∧ AllSound children
  | returned node => node.Counted
  | merged node => node.Counted
  | _ => True

def AllSound : List Visit → Prop
  | [] => True
  | v :: vs => v.Sound ∧ AllSound vs

end

theorem allSound_iff (vs : List Visit) : AllSound vs ↔ ∀ v ∈ vs, v.Sound := by
  induction vs with
  | nil => simp [AllSound]
  | cons v vs ih => simp [AllSound, ih]

theorem AllSound.replace {before after : List Visit} {u u' : Visit}
    (h : AllSound (before ++ u :: after)) (hu : u.Sound → u'.Sound) :
    AllSound (before ++ u' :: after) := by
  rw [allSound_iff] at h ⊢
  exact forall_mem_replace h hu

theorem Step.sound (h : Step interrupts cancelled v action v') (hv : v.Sound) : v'.Sound := by
  induction h with
  | skip name survey h => exact DirNode.counted_empty name
  | list name survey h => trivial
  | send name sent' left subdirs t h => trivial
  | interrupt name sent' left subdirs t h => trivial
  | descend name sent' subdirs =>
    have hnone : (subdirs.map start).flatMap counted = [] := by
      simp [List.flatMap_map, start, counted]
    have hsound : AllSound (subdirs.map start) := by
      rw [allSound_iff]
      intro u hu
      obtain ⟨survey, -, rfl⟩ := List.mem_map.mp hu
      trivial
    exact ⟨by rw [hnone]; simp, hsound⟩
  | inside name files count before after h ih =>
    obtain ⟨hcount, hall⟩ := hv
    obtain ⟨hold, hnew⟩ := h.not_merged
    simp only [List.flatMap_append, List.flatMap_cons, counted_of_not_merged hold] at hcount
    refine ⟨?_, hall.replace ih⟩
    simp only [List.flatMap_append, List.flatMap_cons, counted_of_not_merged hnew]
    exact hcount
  | merge name files count before after node =>
    obtain ⟨hcount, hall⟩ := hv
    have hnode : node.Counted := (allSound_iff _).mp hall (returned node) (by simp)
    have hsize := hnode.count_eq
    refine ⟨?_, hall.replace fun h => h⟩
    simp only [List.flatMap_append, List.flatMap_cons, counted, List.length_append,
      List.nil_append, Int.natCast_add] at hcount ⊢
    omega
  | finish name files count nodes =>
    obtain ⟨hcount, hall⟩ := hv
    have hfiles : (nodes.map merged).flatMap counted = DirNode.allFilesOf nodes := by
      simp only [List.flatMap_map, counted, DirNode.allFilesOf_eq]
    rw [hfiles] at hcount
    rw [allSound_iff] at hall
    refine ⟨hcount, (DirNode.allCounted_iff nodes).mpr ?_⟩
    intro d hd
    exact hall (merged d) (List.mem_map_of_mem hd)
  | notice name files count before after sent' => trivial
  | insideLeaving files before after h ih => trivial
  | leave files children h => trivial

end Visit
end FileSweep
