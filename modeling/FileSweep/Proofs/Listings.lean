import FileSweep.Proofs.Resolution
import FileSweep.Proofs.Walk

/-! What a survey says of a directory is what listing it tells: its files and its directories, or
that it refuses. So the tree that a scan goes by is the one that the system would list, directory by
directory, wherever a path is one that the system takes. -/
namespace FileSweep

/-- A path that the system takes: it can be passed on, and its names are not too long. -/
structure Host.Takes (h : Host) (path : String) : Prop where
  passes : h.nameFault? path = none
  short : path.utf8ByteSize < pathLimit
  names : ∀ n ∈ Path.components path, n.utf8ByteSize ≤ nameLimit

namespace Entry

theorem lookup_of_mem {children : List (String × Entry)}
    (honce : (children.map Prod.fst).Nodup) {name : String} {e : Entry}
    (hmem : (name, e) ∈ children) : children.lookup name = some e := by
  obtain ⟨before, after, rfl⟩ := List.append_of_mem hmem
  rw [List.map_append, List.nodup_append] at honce
  refine List.lookup_eq_some_iff.mpr ⟨before, after, rfl, fun p hp => ?_⟩
  have hne := honce.2.2 p.1 (List.mem_map_of_mem hp) name (by simp)
  simpa using Ne.symm hne

end Entry

namespace Host

variable {h : Host} {dir : String} {children : List (String × Entry)}

theorem scanDir_of_entry? (hpasses : h.nameFault? dir = none)
    (hentry : h.entry? dir = some (.dir children)) :
    h.scanDir dir =
      if h.refused.contains (h.absolute dir) then .error (.accessDenied dir) else .ok children := by
  obtain ⟨⟨hpassable, hne⟩, names, hwalk, hfound⟩ := entry?_eq_some.mp hentry
  have htaken : h.locate dir = .ok (.taken names) :=
    locate_eq_taken.mpr ⟨hne, hpassable.short, hwalk⟩
  simp only [scanDir, hpasses, htaken, hfound]

/-- A directory below one that is there is there too, if its names lead to it without a link. -/
theorem entry?_below {double : Bool} {root below : List String} {cs : List (String × Entry)}
    (hnames : ∀ n ∈ root ++ below, Path.IsName n)
    (hroot : h.entry? (Path.place double root) = some (.dir children))
    (hbelow : (Entry.dir children).at? below = some (.dir cs))
    (htakes : h.Takes (Path.place double (root ++ below))) :
    h.entry? (Path.place double (root ++ below)) = some (.dir cs) := by
  obtain ⟨-, names, hwalk, hfound⟩ := entry?_eq_some.mp hroot
  obtain ⟨top, htop⟩ := @Entry.exists_dir_of_at?_append h.root [] names children hfound
  have hthere : h.root.at? (names ++ below) = some (.dir cs) := by
    rw [Entry.at?_append, hfound, Option.bind_some, hbelow]
  have hfits : ∀ n ∈ below, n.utf8ByteSize ≤ nameLimit := by
    intro n hn
    refine htakes.names n ?_
    rw [Path.components_place double hnames]
    exact List.mem_append_right root hn
  have hdown : walk h.root true 0 names below = .ok (.taken (names ++ below)) :=
    walk_zero_of_names (fun n hn => hnames n (List.mem_append_right root hn)) hfits hthere
  rw [startOf, if_pos (Path.isAbsolute_place double root),
    walk_place double (fun n hn => hnames n (List.mem_append_left below hn)) htop] at hwalk
  rw [entry?_eq_some, startOf, if_pos (Path.isAbsolute_place double _), walk_place double hnames htop]
  exact ⟨⟨⟨holdsNul_of_nameFault? htakes.passes, htakes.short⟩, Path.place_ne_empty double _⟩,
    names ++ below, walk_onward hwalk hdown, hthere⟩

end Host

namespace Survey

inductive Holds : Survey → Survey → Prop
  | self (s : Survey) : Holds s s
  | under {s sub node : Survey} (hsub : sub ∈ s.subdirs) (hnode : Holds sub node) : Holds s node

variable {h : Host} {scope : Scope} {path : String} {children : List (String × Entry)}

theorem mem_subdirs {sub : Survey} (hsub : sub ∈ (ofEntry h scope path (.dir children)).subdirs) :
    ∃ name cs, (name, .dir cs) ∈ children ∧ sub = ofEntry h scope (Path.join path name) (.dir cs) := by
  rw [ofEntry] at hsub
  split at hsub
  next => cases hsub
  next =>
    simp only at hsub
    split at hsub
    next =>
      rw [List.mem_mergeSort, ofChildren_eq] at hsub
      obtain ⟨⟨name, e⟩, hc, rfl⟩ := List.mem_map.mp hsub
      obtain ⟨hmem, hdir⟩ := List.mem_filter.mp hc
      cases e with
      | dir cs => exact ⟨name, cs, hmem, rfl⟩
      | _ => cases hdir
    next => cases hsub

theorem listFiles_ofEntry {pattern : String} (hglob : Glob.compile? pattern = some scope.glob)
    (hscan : h.scanDir path =
      if h.refused.contains path then .error (.accessDenied path) else .ok children) :
    h.listFiles path pattern =
      if (ofEntry h scope path (.dir children)).refused then .error (.accessDenied path)
      else .ok ((ofEntry h scope path (.dir children)).files.map Task.path) := by
  by_cases hrefused : h.refused.contains path = true
  · simp only [Host.listFiles, hglob, hscan, ofEntry, if_pos hrefused]
    rfl
  · simp only [Host.listFiles, hglob, hscan, ofEntry, if_neg hrefused]
    simp [Except.map, matching, taskAt, Function.comp_def]

theorem listDirs_ofEntry (hrecurse : scope.recurse = true)
    (hscan : h.scanDir path =
      if h.refused.contains path then .error (.accessDenied path) else .ok children) :
    h.listDirs path =
      if (ofEntry h scope path (.dir children)).refused then .error (.accessDenied path)
      else .ok ((ofEntry h scope path (.dir children)).subdirs.map Survey.path) := by
  have hsorted : ((ofChildren h scope path children).mergeSort fun a b => a.path ≤ b.path).map
      Survey.path = Host.sortPaths ((ofChildren h scope path children).map Survey.path) :=
    List.map_mergeSort fun a _ b _ => rfl
  have hpaths : (ofChildren h scope path children).map Survey.path =
      (children.filter fun c => c.2.isDir).map fun c => Path.join path c.1 := by
    rw [ofChildren_eq, List.map_map]
    exact List.map_congr_left fun c _ => path_ofEntry h scope _ _
  by_cases hrefused : h.refused.contains path = true
  · simp only [Host.listDirs, hscan, ofEntry, if_pos hrefused]
    rfl
  · simp only [Host.listDirs, hscan, ofEntry, if_neg hrefused, if_pos hrecurse, hsorted, hpaths]
    rfl

/-- Each survey below a directory's is that of a directory below it, which its names lead to. -/
theorem Holds.exists_below {double : Bool} {root chain : List String} {node : Survey}
    (hnode : Holds (ofEntry h scope path (.dir children)) node)
    (hpath : Path.Leads double root chain path) (hwell : (Entry.dir children).WellNamed) :
    ∃ below cs, (Entry.dir children).at? below = some (.dir cs) ∧
      Path.Leads double root (chain ++ below) node.path ∧
      node = ofEntry h scope node.path (.dir cs) := by
  generalize hs : ofEntry h scope path (.dir children) = s at hnode
  induction hnode generalizing path children chain with
  | self s =>
    subst hs
    exact ⟨[], children, rfl, by simpa using hpath, by simp⟩
  | @under s sub node hsub hnode ih =>
    subst hs
    obtain ⟨name, cs, hmem, rfl⟩ := mem_subdirs hsub
    obtain ⟨hname, hcs⟩ := (Entry.allWellNamed_iff children).mp hwell.2 _ hmem
    obtain ⟨below, inner, hbelow, hleads, hnode⟩ := ih (hpath.join hname) hcs rfl
    have hchild : children.lookup name = some (.dir cs) := Entry.lookup_of_mem hwell.1 hmem
    refine ⟨name :: below, inner, ?_, by simpa using hleads, hnode⟩
    simp only [Entry.at?, Entry.child?, Entry.children, hchild, hbelow]

/-- Each directory that a survey holds is listed as the survey says. -/
theorem listed_of_holds {root pattern : String} {node : Survey}
    (hcwd : Path.isAbsolute h.cwd = true) (hglob : Glob.compile? pattern = some scope.glob)
    (hroot : h.entry? (h.absolute root) = some (.dir children))
    (hwell : (Entry.dir children).WellNamed)
    (hnode : Holds (ofEntry h scope (h.absolute root) (.dir children)) node)
    (htakes : h.Takes node.path) :
    h.listFiles node.path pattern =
        (if node.refused then .error (.accessDenied node.path)
          else .ok (node.files.map Task.path)) ∧
      (scope.recurse = true →
        h.listDirs node.path =
          if node.refused then .error (.accessDenied node.path)
          else .ok (node.subdirs.map Survey.path)) := by
  obtain ⟨double, names, hplace, hpath⟩ := Path.exists_leads_of_absolute hcwd root
  obtain ⟨below, cs, hbelow, hleads, hsurvey⟩ := hnode.exists_below hpath hwell
  rw [List.nil_append] at hleads
  have hentry : h.entry? node.path = some (.dir cs) := by
    rw [Host.absolute, hplace] at hroot
    rw [hleads.path_eq] at htakes ⊢
    exact Host.entry?_below hleads.names hroot hbelow htakes
  have habsolute : h.absolute node.path = node.path := by
    rw [hleads.path_eq, Host.absolute, Path.absolute, if_pos (Path.isAbsolute_place double _),
      Path.normalize_place double hleads.names]
  have hscan := Host.scanDir_of_entry? htakes.passes hentry
  rw [habsolute] at hscan
  have hfiles := listFiles_ofEntry hglob hscan
  have hdirs := fun hrecurse : scope.recurse = true => listDirs_ofEntry hrecurse hscan
  rw [← hsurvey] at hfiles hdirs
  exact ⟨hfiles, hdirs⟩

end Survey
end FileSweep
