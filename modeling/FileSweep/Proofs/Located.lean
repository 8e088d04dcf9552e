import FileSweep.Proofs.Walk

/-! Where the files of a tree are: each with the chain of names from the root down to it. In
the tree of a walk every chain leads to one file, and the chains are those of the files that
the walk can reach. -/
namespace FileSweep

namespace DirNode

mutual

/-- The files of a tree with the chains of names that lead to them. -/
def located : DirNode → List (List String × Task)
  | ⟨_, files, dirs, _⟩ => files.map (fun t => ([t.name], t)) ++ locatedBelow dirs

def locatedBelow : List DirNode → List (List String × Task)
  | [] => []
  | d :: ds => d.located.map (fun p => (d.name :: p.1, p.2)) ++ locatedBelow ds

end

mutual

theorem files_located : (d : DirNode) → d.located.map Prod.snd = d.allFiles
  | ⟨_, files, dirs, _⟩ => by
    rw [located, allFiles, List.map_append, files_locatedBelow dirs, List.map_map]
    congr 1
    exact List.map_id' files

theorem files_locatedBelow : (ds : List DirNode) → (locatedBelow ds).map Prod.snd = allFilesOf ds
  | [] => rfl
  | d :: ds => by
    rw [locatedBelow, allFilesOf, List.map_append, files_locatedBelow ds, List.map_map,
      ← files_located d]
    rfl

end

theorem mem_locatedBelow {ds : List DirNode} {p : List String × Task} :
    p ∈ locatedBelow ds ↔ ∃ d ∈ ds, ∃ q ∈ d.located, p = (d.name :: q.1, q.2) := by
  induction ds with
  | nil => simp [locatedBelow]
  | cons d ds ih =>
    simp only [locatedBelow, List.mem_append, List.mem_map, ih, List.mem_cons, or_and_right,
      exists_or, exists_eq_left]
    simp only [eq_comm]

theorem mem_located {d : DirNode} {p : List String × Task} :
    p ∈ d.located ↔ (∃ t ∈ d.files, p = ([t.name], t)) ∨ p ∈ locatedBelow d.dirs := by
  obtain ⟨name, files, dirs, count⟩ := d
  simp only [located, List.mem_append, List.mem_map]
  simp only [eq_comm]

theorem chain_ne_nil {d : DirNode} {p : List String × Task} (h : p ∈ d.located) : p.1 ≠ [] := by
  rcases mem_located.mp h with ⟨t, -, rfl⟩ | h
  · simp
  · obtain ⟨e, -, q, -, rfl⟩ := mem_locatedBelow.mp h
    simp

mutual

/-- Whether no directory has two files or two subdirectories of one name. -/
def Distinct : DirNode → Prop
  | ⟨_, files, dirs, _⟩ =>
    (files.map Task.name).Nodup ∧ (dirs.map DirNode.name).Nodup ∧ AllDistinct dirs

def AllDistinct : List DirNode → Prop
  | [] => True
  | d :: ds => d.Distinct ∧ AllDistinct ds

end

theorem allDistinct_iff (ds : List DirNode) : AllDistinct ds ↔ ∀ d ∈ ds, d.Distinct := by
  induction ds with
  | nil => simp [AllDistinct]
  | cons d ds ih => simp [AllDistinct, ih]

mutual

theorem nodup_located : (d : DirNode) → d.Distinct → (d.located.map Prod.fst).Nodup
  | ⟨name, files, dirs, count⟩, h => by
    obtain ⟨hfiles, hnames, hdirs⟩ := h
    have hbelow := nodup_locatedBelow dirs hnames hdirs
    have hhere : (files.map fun t => [t.name]).Nodup := by
      have hmap : files.map (fun t => [t.name]) = (files.map Task.name).map fun n => [n] := by
        simp [Function.comp_def]
      rw [hmap]
      exact List.Pairwise.map _ (fun a b hne heq => hne (List.singleton_inj.mp heq)) hfiles
    rw [located, List.map_append, List.map_map]
    refine List.nodup_append.mpr ⟨hhere, hbelow, ?_⟩
    rintro chain hchain _ hother rfl
    obtain ⟨t, -, rfl⟩ := List.mem_map.mp hchain
    obtain ⟨p, hp, hfirst⟩ := List.mem_map.mp hother
    obtain ⟨d, -, q, hq, rfl⟩ := mem_locatedBelow.mp hp
    have hnil : q.1 = [] := (List.cons.inj hfirst).2
    exact chain_ne_nil hq hnil

theorem nodup_locatedBelow : (ds : List DirNode) → (ds.map DirNode.name).Nodup → AllDistinct ds →
    ((locatedBelow ds).map Prod.fst).Nodup
  | [], _, _ => by simp [locatedBelow]
  | d :: ds, hnames, h => by
    obtain ⟨hnot, hrest⟩ := List.nodup_cons.mp hnames
    have hfirst := nodup_located d h.1
    have hlater := nodup_locatedBelow ds hrest h.2
    have hmap : (d.located.map fun p => (d.name :: p.1, p.2)).map Prod.fst =
        (d.located.map Prod.fst).map fun chain => d.name :: chain := by
      simp [Function.comp_def]
    rw [locatedBelow, List.map_append, hmap]
    refine List.nodup_append.mpr ⟨?_, hlater, ?_⟩
    · exact List.Pairwise.map _ (fun a b hne heq => hne (List.cons.inj heq).2) hfirst
    · rintro chain hchain _ hother rfl
      obtain ⟨front, -, rfl⟩ := List.mem_map.mp hchain
      obtain ⟨p, hp, hsame⟩ := List.mem_map.mp hother
      obtain ⟨e, he, q, -, rfl⟩ := mem_locatedBelow.mp hp
      have hname : e.name = d.name := (List.cons.inj hsame).1
      exact hnot (hname ▸ List.mem_map_of_mem he)

end

end DirNode

namespace Walk

open DirNode

/-- The file that a chain of names leads to from a directory, which is itself reached from the
root by the names `before`. -/
def fileAt (path : String) (before chain : List String) : Task :=
  { path := chain.foldl Path.join path
    relative := String.intercalate "/" (before ++ chain)
    name := chain.getLastD "" }

theorem fileAt_cons (path name : String) (before : List String) {chain : List String}
    (h : chain ≠ []) :
    fileAt path before (name :: chain) =
      fileAt (Path.join path name) (before ++ [name]) chain := by
  obtain ⟨last, front, rfl⟩ := List.exists_cons_of_ne_nil h
  simp [fileAt]

variable {h : Host} {glob : Glob} {recurse : Bool}

theorem mem_files {path : String} {before : List String} {children : List (String × Entry)}
    {t : Task} :
    t ∈ files h glob path before children ↔
      ∃ c ∈ children, glob.matches c.1 = true ∧ h.entryIsFile path c = true ∧
        t = fileAt path before [c.1] := by
  simp only [files, List.mem_map, List.mem_mergeSort, List.mem_filter, Bool.and_eq_true]
  constructor
  · rintro ⟨n, ⟨c, ⟨hc, hmatch, hfile⟩, rfl⟩, rfl⟩
    exact ⟨c, hc, hmatch, hfile, rfl⟩
  · rintro ⟨c, hc, hmatch, hfile, rfl⟩
    exact ⟨c.1, ⟨c, ⟨hc, hmatch, hfile⟩, rfl⟩, rfl⟩

theorem reaches_of_mem {path : String} {before : List String} {name : String} {e : Entry}
    {p : List String × Task} (hp : p ∈ (tree h glob recurse path before name e).located) :
    Reaches h glob recurse path e.children p.1 ∧ p.2 = fileAt path before p.1 := by
  induction e using Entry.dirInduction generalizing path before name p with
  | leaf e he =>
    rw [tree_leaf h glob recurse path before name he] at hp
    simp [located, locatedBelow] at hp
  | dir children ih =>
    rw [tree] at hp
    split at hp
    next => simp [located, locatedBelow] at hp
    next hrefused =>
      have hlisted : h.refused.contains path = false := by simpa using hrefused
      rcases mem_located.mp hp with ⟨t, ht, rfl⟩ | hbelow
      · obtain ⟨c, hc, hmatch, hfile, rfl⟩ := mem_files.mp ht
        exact ⟨.file hlisted hc hmatch hfile, rfl⟩
      · obtain ⟨d, hd, q, hq, rfl⟩ := mem_locatedBelow.mp hbelow
        have hdir : recurse = true ∧ d ∈ dirs h glob recurse path before children := by
          cases recurse with
          | false => simp at hd
          | true => simpa using hd
        obtain ⟨⟨first, e⟩, hc, hisDir, rfl⟩ := mem_dirs.mp hdir.2
        cases e with
        | dir cs =>
          obtain ⟨hreach, hfile⟩ := ih (first, .dir cs) hc hq
          rw [name_tree]
          refine ⟨.deeper hdir.1 hlisted hc hreach, ?_⟩
          rw [fileAt_cons path first before (chain_ne_nil hq)]
          exact hfile
        | file content mode => cases hisDir
        | program name => cases hisDir
        | link target => cases hisDir

theorem mem_of_reaches {path : String} {children : List (String × Entry)} {chain : List String}
    (hreach : Reaches h glob recurse path children chain) (before : List String) (name : String) :
    (chain, fileAt path before chain) ∈
      (tree h glob recurse path before name (.dir children)).located := by
  induction hreach generalizing before name with
  | @file path children c hlisted hc hmatch hfile =>
    rw [tree, if_neg (by rw [hlisted]; exact Bool.false_ne_true), mem_located]
    exact Or.inl ⟨fileAt path before [c.1], mem_files.mpr ⟨c, hc, hmatch, hfile, rfl⟩, rfl⟩
  | @deeper path first children cs chain hrecurse hlisted hc hchain ih =>
    have hmem := ih (before ++ [first]) first
    have hdir : tree h glob recurse (Path.join path first) (before ++ [first]) first (.dir cs) ∈
        dirs h glob recurse path before children :=
      mem_dirs.mpr ⟨(first, .dir cs), hc, rfl, rfl⟩
    rw [tree, if_neg (by rw [hlisted]; exact Bool.false_ne_true), mem_located]
    refine Or.inr (mem_locatedBelow.mpr ⟨_, ?_, _, hmem, ?_⟩)
    · simp only [hrecurse, if_true, List.mem_mergeSort] at hdir ⊢
      exact hdir
    · rw [name_tree, fileAt_cons path first before (chain_ne_nil hmem)]

theorem distinct_tree {path : String} {before : List String} {name : String} {e : Entry}
    (hwell : e.WellNamed) : (tree h glob recurse path before name e).Distinct := by
  induction e using Entry.dirInduction generalizing path before name with
  | leaf e he =>
    rw [tree_leaf h glob recurse path before name he]
    simp [Distinct, AllDistinct]
  | dir children ih =>
    obtain ⟨hnodup, hall⟩ := hwell
    have hkept : ∀ keep : String × Entry → Bool, ((children.filter keep).map Prod.fst).Nodup :=
      fun keep => hnodup.sublist (List.filter_sublist.map Prod.fst)
    rw [tree]
    split
    · simp [Distinct, AllDistinct]
    · refine ⟨?_, ?_, (allDistinct_iff _).mpr ?_⟩
      · have hnames : (files h glob path before children).map Task.name =
            ((children.filter fun c => glob.matches c.1 && h.entryIsFile path c).map
              Prod.fst).mergeSort fun a b => a ≤ b := by
          rw [files, List.map_map]
          exact List.map_id' _
        rw [hnames]
        exact (List.mergeSort_perm _ _).nodup_iff.mpr (hkept _)
      · split
        · have hnames : (dirs h glob recurse path before children).map DirNode.name =
              (children.filter fun c => c.2.isDir).map Prod.fst := by
            rw [dirs_eq, List.map_map]
            simp [Function.comp_def]
          have hsorted := (List.mergeSort_perm (dirs h glob recurse path before children)
            fun a b => a.name ≤ b.name).map DirNode.name
          rw [hsorted.nodup_iff, hnames]
          exact hkept _
        · simp
      · split
        · intro d hd
          obtain ⟨c, hc, -, rfl⟩ := mem_dirs.mp (List.mem_mergeSort.mp hd)
          exact ih c hc ((Entry.allWellNamed_iff children).mp hall c hc).2
        · simp

theorem Reaches.leads {double : Bool} {root before chain : List String} {path : String}
    {children : List (String × Entry)} (hreach : Reaches h glob recurse path children chain)
    (hpath : Path.Leads double root before path) (hwell : (Entry.dir children).WellNamed) :
    Path.Leads double root (before ++ chain) (fileAt path before chain).path := by
  induction hreach generalizing before with
  | @file path children c hlisted hc hmatch hfile =>
    exact hpath.join ((Entry.allWellNamed_iff children).mp hwell.2 c hc).1
  | @deeper path name children cs chain hrecurse hlisted hc hchain ih =>
    obtain ⟨hname, hbelow⟩ := (Entry.allWellNamed_iff children).mp hwell.2 _ hc
    have hleads := ih (hpath.join hname) hbelow
    rwa [List.append_assoc, List.singleton_append] at hleads

theorem nodup_paths {double : Bool} {root before : List String} {path : String} (name : String)
    {children : List (String × Entry)} (hpath : Path.Leads double root before path)
    (hwell : (Entry.dir children).WellNamed) :
    ((tree h glob recurse path before name (.dir children)).allFiles.map Task.path).Nodup := by
  let walked := tree h glob recurse path before name (.dir children)
  have honce : (walked.located.map Prod.fst).Nodup := nodup_located _ (distinct_tree hwell)
  have hleads : ∀ p ∈ walked.located, Path.Leads double root (before ++ p.1) p.2.path := by
    intro p hp
    obtain ⟨hreach, hfile⟩ := reaches_of_mem hp
    rw [hfile]
    exact Reaches.leads hreach hpath hwell
  rw [← files_located, List.map_map]
  refine List.pairwise_map.mpr ((List.pairwise_map.mp honce).imp_of_mem ?_)
  intro p q hp hq hne hsame
  have hq' := hleads q hq
  rw [← show p.2.path = q.2.path from hsame] at hq'
  exact hne (List.append_cancel_left ((hleads p hp).chain_eq hq'))

end Walk
end FileSweep
