import FileSweep.Proofs.Paths
import FileSweep.Proofs.Schedules

/-! The plain walk of a directory tree: list a directory, then walk its subdirectories one
after another, all by name. It knows of no surveys, visits or counts added up on the way, and
a scan gives the same tree. -/
namespace FileSweep

namespace Entry

mutual

/-- Induction on a tree of entries, in which only directories hold others. -/
@[elab_as_elim]
theorem dirInduction {motive : Entry → Prop} (leaf : ∀ e, e.isDir = false → motive e)
    (dir : ∀ children : List (String × Entry), (∀ c ∈ children, motive c.2) →
      motive (.dir children)) : (e : Entry) → motive e
  | .dir children => dir children (dirInductionBelow leaf dir children)
  | .file content mode => leaf (.file content mode) rfl
  | .program name => leaf (.program name) rfl
  | .link target => leaf (.link target) rfl

theorem dirInductionBelow {motive : Entry → Prop} (leaf : ∀ e, e.isDir = false → motive e)
    (dir : ∀ children : List (String × Entry), (∀ c ∈ children, motive c.2) →
      motive (.dir children)) :
    (children : List (String × Entry)) → ∀ c ∈ children, motive c.2
  | [] => by simp
  | (name, e) :: rest => by
    intro c hc
    rcases List.mem_cons.mp hc with rfl | hc
    · exact dirInduction leaf dir e
    · exact dirInductionBelow leaf dir rest c hc

end

mutual

/-- Whether every directory has proper names for its entries, each for one of them. -/
def WellNamed : Entry → Prop
  | .dir children => (children.map Prod.fst).Nodup ∧ AllWellNamed children
  | _ => True

def AllWellNamed : List (String × Entry) → Prop
  | [] => True
  | (name, e) :: rest => Path.IsName name ∧ e.WellNamed ∧ AllWellNamed rest

end

theorem allWellNamed_iff (children : List (String × Entry)) :
    AllWellNamed children ↔ ∀ c ∈ children, Path.IsName c.1 ∧ c.2.WellNamed := by
  induction children with
  | nil => simp [AllWellNamed]
  | cons c rest ih => simp [AllWellNamed, ih, and_assoc]

end Entry

namespace Walk

def files (h : Host) (glob : Glob) (path : String) (chain : List String)
    (children : List (String × Entry)) : List Task :=
  (((children.filter fun c => glob.matches c.1 && h.entryIsFile path c).map Prod.fst).mergeSort
    fun a b => a ≤ b).map fun name =>
      { path := Path.join path name
        relative := String.intercalate "/" (chain ++ [name])
        name }

mutual

/-- The tree of the directory `path`, which holds the entry and is reached from the root by a
chain of names. -/
def tree (h : Host) (glob : Glob) (recurse : Bool) (path : String) (chain : List String)
    (name : String) : Entry → DirNode
  | .dir children =>
    if h.refused.contains path then { name }
    else
      let files := files h glob path chain children
      let dirs :=
        if recurse then
          (dirs h glob recurse path chain children).mergeSort fun a b => a.name ≤ b.name
        else []
      { name, files, dirs, count := files.length + (DirNode.allFilesOf dirs).length }
  | _ => { name }

def dirs (h : Host) (glob : Glob) (recurse : Bool) (path : String) (chain : List String) :
    List (String × Entry) → List DirNode
  | [] => []
  | (name, .dir cs) :: rest =>
    tree h glob recurse (Path.join path name) (chain ++ [name]) name (.dir cs) ::
      dirs h glob recurse path chain rest
  | (_, _) :: rest => dirs h glob recurse path chain rest

end

/-- The files that a walk comes to, by the chain of names from the directory `path` down. -/
inductive Reaches (h : Host) (glob : Glob) (recurse : Bool) :
    String → List (String × Entry) → List String → Prop
  | file {path : String} {children : List (String × Entry)} {c : String × Entry}
      (hlisted : h.refused.contains path = false) (hc : c ∈ children)
      (hmatch : glob.matches c.1 = true) (hfile : h.entryIsFile path c = true) :
      Reaches h glob recurse path children [c.1]
  | deeper {path name : String} {children cs : List (String × Entry)} {chain : List String}
      (hrecurse : recurse = true) (hlisted : h.refused.contains path = false)
      (hc : (name, .dir cs) ∈ children)
      (hchain : Reaches h glob recurse (Path.join path name) cs chain) :
      Reaches h glob recurse path children (name :: chain)

end Walk

namespace Survey

theorem trees_eq (surveys : List Survey) :
    trees surveys = surveys.map fun s => s.tree (Path.base s.path) := by
  induction surveys with
  | nil => rfl
  | cons s ss ih => rw [trees, ih, List.map_cons]

@[simp] theorem name_tree (name : String) (survey : Survey) : (survey.tree name).name = name := by
  obtain ⟨path, refused, files, subdirs⟩ := survey
  rfl

@[simp] theorem files_tree (name : String) (survey : Survey) :
    (survey.tree name).files = survey.files := by
  obtain ⟨path, refused, files, subdirs⟩ := survey
  rfl

theorem ofEntry_leaf (h : Host) (scope : Scope) (path : String) {e : Entry}
    (he : e.isDir = false) : ofEntry h scope path e = { path } := by
  cases e with
  | dir children => cases he
  | file content mode => rfl
  | program name => rfl
  | link target => rfl

@[simp] theorem path_ofEntry (h : Host) (scope : Scope) (path : String) (e : Entry) :
    (ofEntry h scope path e).path = path := by
  cases e with
  | dir children => rw [ofEntry]; split <;> rfl
  | _ => rfl

theorem ofChildren_eq (h : Host) (scope : Scope) (path : String)
    (children : List (String × Entry)) :
    ofChildren h scope path children =
      (children.filter fun c => c.2.isDir).map fun c =>
        ofEntry h scope (Path.join path c.1) c.2 := by
  induction children with
  | nil => rfl
  | cons c rest ih =>
    obtain ⟨name, e⟩ := c
    cases e <;> simp [ofChildren, ih, Entry.isDir]

end Survey

namespace Walk

variable (h : Host) (glob : Glob) (recurse : Bool)

theorem dirs_eq (path : String) (chain : List String) (children : List (String × Entry)) :
    dirs h glob recurse path chain children =
      (children.filter fun c => c.2.isDir).map fun c =>
        tree h glob recurse (Path.join path c.1) (chain ++ [c.1]) c.1 c.2 := by
  induction children with
  | nil => rfl
  | cons c rest ih =>
    obtain ⟨name, e⟩ := c
    cases e <;> simp [dirs, ih, Entry.isDir]

theorem tree_leaf (path : String) (chain : List String) (name : String) {e : Entry}
    (he : e.isDir = false) : tree h glob recurse path chain name e = { name } := by
  cases e with
  | dir children => cases he
  | file content mode => rfl
  | program name => rfl
  | link target => rfl

@[simp] theorem name_tree (path : String) (chain : List String) (name : String) (e : Entry) :
    (tree h glob recurse path chain name e).name = name := by
  cases e with
  | dir children => rw [tree]; split <;> rfl
  | _ => rfl

variable {h glob recurse}

theorem mem_dirs {path : String} {chain : List String} {children : List (String × Entry)}
    {d : DirNode} :
    d ∈ dirs h glob recurse path chain children ↔
      ∃ c ∈ children, c.2.isDir = true ∧
        d = tree h glob recurse (Path.join path c.1) (chain ++ [c.1]) c.1 c.2 := by
  simp only [dirs_eq, List.mem_map, List.mem_filter, and_assoc]
  simp only [eq_comm]

theorem counted_tree (path : String) (chain : List String) (name : String) (e : Entry) :
    (tree h glob recurse path chain name e).Counted := by
  induction e using Entry.dirInduction generalizing path chain name with
  | leaf e he => rw [tree_leaf h glob recurse path chain name he]; exact DirNode.counted_empty name
  | dir children ih =>
    rw [tree]
    split
    · exact DirNode.counted_empty name
    · refine ⟨rfl, (DirNode.allCounted_iff _).mpr ?_⟩
      split
      · intro d hd
        obtain ⟨c, hc, -, rfl⟩ := mem_dirs.mp (List.mem_mergeSort.mp hd)
        exact ih c hc _ _ _
      · simp

theorem sortPaths_join {path : String} (hpath : path ≠ "") {names : List String}
    (hnames : ∀ n ∈ names, Path.IsName n) :
    Host.sortPaths (names.map (Path.join path)) =
      (names.mergeSort fun a b => a ≤ b).map (Path.join path) := by
  refine (List.map_mergeSort fun a ha b hb => ?_).symm
  have hle := Path.join_le_join hpath (hnames a ha) (hnames b hb)
  simp [hle]

section

variable {double : Bool} {root chain : List String} {path : String}

/-- Seen from the root, a file is named by the chain that leads to it. -/
theorem taskAt_join (hpath : Path.Leads double root chain path) {name : String}
    (hname : Path.IsName name) :
    Survey.taskAt (Path.place double root) (Path.join path name) =
      { path := Path.join path name
        relative := String.intercalate "/" (chain ++ [name])
        name } := by
  have hbase := Path.base_join hpath.ne_empty hname
  have hrelative := (hpath.join hname).relative_eq (by simp)
  rw [Survey.taskAt, hbase, hrelative]

theorem matching_eq_files (hpath : Path.Leads double root chain path)
    {children : List (String × Entry)} (hchildren : ∀ c ∈ children, Path.IsName c.1) :
    Survey.matching h ⟨Path.place double root, glob, recurse⟩ path children =
      files h glob path chain children := by
  have hfound : ∀ n ∈ (children.filter fun c => glob.matches c.1 && h.entryIsFile path c).map
      Prod.fst, Path.IsName n := by
    intro n hn
    obtain ⟨c, hc, rfl⟩ := List.mem_map.mp hn
    exact hchildren c (List.mem_filter.mp hc).1
  have hlisted : (children.filter fun c => glob.matches c.1 && h.entryIsFile path c).map
      (fun c => Path.join path c.1) =
      ((children.filter fun c => glob.matches c.1 && h.entryIsFile path c).map Prod.fst).map
        (Path.join path) := by
    rw [List.map_map]; rfl
  rw [Survey.matching, files, hlisted, sortPaths_join hpath.ne_empty hfound, List.map_map]
  refine List.map_congr_left fun n hn => ?_
  exact taskAt_join hpath (hfound n (List.mem_mergeSort.mp hn))

theorem trees_mergeSort (hpath : path ≠ "") {scope : Survey.Scope}
    {children : List (String × Entry)} (hchildren : ∀ c ∈ children, Path.IsName c.1) :
    Survey.trees ((Survey.ofChildren h scope path children).mergeSort fun a b => a.path ≤ b.path) =
      (Survey.trees (Survey.ofChildren h scope path children)).mergeSort
        fun a b => a.name ≤ b.name := by
  have hnamed : ∀ s ∈ Survey.ofChildren h scope path children,
      ∃ n, Path.IsName n ∧ s.path = Path.join path n := by
    intro s hs
    rw [Survey.ofChildren_eq] at hs
    obtain ⟨c, hc, rfl⟩ := List.mem_map.mp hs
    exact ⟨c.1, hchildren c (List.mem_filter.mp hc).1, Survey.path_ofEntry h scope _ _⟩
  rw [Survey.trees_eq, Survey.trees_eq]
  refine List.map_mergeSort fun a ha b hb => ?_
  obtain ⟨m, hm, hapath⟩ := hnamed a ha
  obtain ⟨n, hn, hbpath⟩ := hnamed b hb
  have hle := Path.join_le_join hpath hm hn
  rw [Survey.name_tree, Survey.name_tree, hapath, hbpath, Path.base_join hpath hm,
    Path.base_join hpath hn]
  simp [hle]

end

/-- An undisturbed scan of a directory returns the tree of the plain walk. -/
theorem tree_ofEntry {double : Bool} {root chain : List String} {path : String}
    (hpath : Path.Leads double root chain path) (name : String) {e : Entry} (hwell : e.WellNamed) :
    (Survey.ofEntry h ⟨Path.place double root, glob, recurse⟩ path e).tree name =
      tree h glob recurse path chain name e := by
  induction e using Entry.dirInduction generalizing chain path name with
  | leaf e he =>
    rw [Survey.ofEntry_leaf _ _ _ he, tree_leaf h glob recurse path chain name he]
    simp [Survey.tree, Survey.trees]
  | dir children ih =>
    have hall := (Entry.allWellNamed_iff children).mp hwell.2
    have hchildren : ∀ c ∈ children, Path.IsName c.1 := fun c hc => (hall c hc).1
    have hbelow : Survey.trees
        (Survey.ofChildren h ⟨Path.place double root, glob, recurse⟩ path children) =
        dirs h glob recurse path chain children := by
      rw [Survey.trees_eq, Survey.ofChildren_eq, dirs_eq, List.map_map]
      refine List.map_congr_left fun c hc => ?_
      have hmem := (List.mem_filter.mp hc).1
      have hsub := ih c hmem (hpath.join (hchildren c hmem)) c.1 (hall c hmem).2
      rw [Function.comp_apply, Survey.path_ofEntry,
        Path.base_join hpath.ne_empty (hchildren c hmem), hsub]
    have hsorted := @trees_mergeSort h path hpath.ne_empty
      ⟨Path.place double root, glob, recurse⟩ children hchildren
    have hcounted : DirNode.AllCounted
        ((dirs h glob recurse path chain children).mergeSort fun a b => a.name ≤ b.name) := by
      rw [DirNode.allCounted_iff]
      intro d hd
      obtain ⟨c, -, -, rfl⟩ := mem_dirs.mp (List.mem_mergeSort.mp hd)
      exact counted_tree _ _ _ _
    rw [Survey.ofEntry, tree]
    split
    · simp [Survey.tree, Survey.trees]
    · rw [Survey.tree, matching_eq_files hpath hchildren]
      cases recurse with
      | false => simp [Survey.trees, DirNode.allFilesOf]
      | true =>
        simp only [if_true]
        rw [hsorted, hbelow, hcounted.countOf_eq]

end Walk
end FileSweep
