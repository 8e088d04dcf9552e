import FileSweep.Marker
import FileSweep.Proofs.FileParts
import FileSweep.Proofs.Offers
import FileSweep.Proofs.ScanTree

/-! What the markers of a scanned file stand for. Every file that a scan comes to, in whatever
schedule and however it ends, lies below the root by a chain of proper names; so its paths, its
directories, its name, its stem and its extension are parts of one another. -/
namespace FileSweep

namespace Path

theorem joinComponents_append {front back : List (List Char)} (hfront : front ≠ [])
    (hback : back ≠ []) :
    joinComponents (front ++ back) = joinComponents front ++ '/' :: joinComponents back := by
  induction front with
  | nil => exact absurd rfl hfront
  | cons part front ih =>
    cases front with
    | nil =>
      obtain ⟨next, back, rfl⟩ := List.exists_cons_of_ne_nil hback
      simp
    | cons next front =>
      rw [List.cons_append, List.cons_append, joinComponents_cons_cons, joinComponents_cons_cons,
        ← List.cons_append, ih (by simp), List.append_assoc, List.cons_append]

theorem toList_intercalate_slash (names : List String) :
    (String.intercalate "/" names).toList = joinComponents (names.map String.toList) := by
  rw [String.toList_intercalate]
  rfl

theorem join_place_intercalate (double : Bool) {names below : List String} (hne : below ≠ [])
    (h : ∀ n ∈ names ++ below, IsName n) :
    join (place double names) (String.intercalate "/" below) = place double (names ++ below) := by
  have hnames : ∀ n ∈ names, IsName n := fun n hn => h n (List.mem_append_left below hn)
  have hrelative : isAbsolute (String.intercalate "/" below) = false := by
    rw [isAbsolute, toList_intercalate_slash, beq_eq_false_iff_ne]
    exact head_joinComponents fun n hn => h n (List.mem_append_right names hn)
  rw [← String.toList_inj, toList_join (place_ne_empty double names) hrelative,
    toList_intercalate_slash]
  by_cases hnil : names = []
  · rw [if_pos ((getLast?_place double hnames).mpr hnil)]
    simp [hnil, place]
  · rw [if_neg fun hlast => hnil ((getLast?_place double hnames).mp hlast)]
    have happend := @joinComponents_append (names.map String.toList) (below.map String.toList)
      (by simpa using hnil) (by simpa using hne)
    simp [place, happend]

theorem isSeat_place (double : Bool) {names : List String} (h : ∀ n ∈ names, IsName n) :
    IsSeat (place double names) := by
  by_cases hnil : names = []
  · refine Or.inl ?_
    cases double <;> simp [hnil, place, lead]
  · exact Or.inr fun hlast => hnil ((getLast?_place double h).mp hlast)

theorem isSeat_intercalate {names : List String} (h : ∀ n ∈ names, IsName n) :
    IsSeat (String.intercalate "/" names) := by
  rw [IsSeat, toList_intercalate_slash]
  exact Or.inr (getLast?_joinComponents h)

theorem join_intercalate {front : List String} {name : String}
    (h : ∀ n ∈ front ++ [name], IsName n) :
    join (String.intercalate "/" front) name = String.intercalate "/" (front ++ [name]) := by
  have hname : IsName name := h name (by simp)
  have hfront : ∀ n ∈ front, IsName n := fun n hn => h n (List.mem_append_left [name] hn)
  cases front with
  | nil => simp
  | cons first rest =>
    have hfirst : first.toList ≠ [] := by simpa using (hfront first List.mem_cons_self).1
    have hne : String.intercalate "/" (first :: rest) ≠ "" := by
      rw [Ne, ← String.toList_eq_nil_iff, toList_intercalate_slash]
      cases rest <;> simp [hfirst]
    rw [← String.toList_inj, toList_join hne hname.isAbsolute_eq_false, toList_intercalate_slash,
      toList_intercalate_slash, List.map_append, List.map_singleton,
      joinComponents_concat (by simp), if_neg (getLast?_joinComponents hfront)]
    rfl

end Path

/-- Whether what the markers of a file stand for fits together, seen from the root of a scan: each
path is made up of its parts. -/
structure Task.Coherent (root : String) (t : Task) : Prop where
  fromRoot : Variable.value t .path = Path.join root (Variable.value t .relativePath)
  fromDirectory : Variable.value t .path = Path.join (Variable.value t .directory) t.name
  relativeFromDirectory :
    Variable.value t .relativePath = Path.join (Variable.value t .relativeDirectory) t.name
  name : Path.IsMadeOf t.name (Variable.value t .stem) (Variable.value t .extension)

open FileSweep.Path

theorem Task.coherent_of_leads {double : Bool} {root chain : List String} {t : Task}
    (hleads : Leads double root chain t.path) (hne : chain ≠ [])
    (hlast : t.name = chain.getLastD "")
    (hrelative : t.relative = String.intercalate "/" chain) : t.Coherent (place double root) := by
  obtain ⟨front, rfl⟩ : ∃ front, chain = front ++ [t.name] := by
    rcases List.eq_nil_or_concat chain with hnil | ⟨front, last, hconcat⟩
    · exact absurd hnil hne
    · exact ⟨front, by simp [hlast, hconcat]⟩
  obtain ⟨h, hpath⟩ := hleads
  have hname : IsName t.name := h t.name (by simp)
  have hchain : ∀ n ∈ front ++ [t.name], IsName n := fun n hn => h n (List.mem_append_right root hn)
  have hfront : ∀ n ∈ front, IsName n := fun n hn => hchain n (List.mem_append_left [t.name] hn)
  have habove : ∀ n ∈ root ++ front, IsName n := by
    intro n hn
    rw [← List.append_assoc] at h
    exact h n (List.mem_append_left [t.name] hn)
  have hjoined : t.path = join (place double (root ++ front)) t.name := by
    rw [hpath, join_place double habove hname, List.append_assoc]
  have hdown : t.relative = join (String.intercalate "/" front) t.name := by
    rw [hrelative, join_intercalate hchain]
  have hbase : base t.path = t.name := by
    rw [hjoined, base_join (place_ne_empty double _) hname]
  refine
    { fromRoot := ?fromRoot, fromDirectory := ?fromDirectory
      relativeFromDirectory := ?relativeFromDirectory, name := ?name }
  case fromRoot =>
    rw [Variable.value, Variable.value, hrelative, join_place_intercalate double (by simp) h, hpath]
  case fromDirectory =>
    have hdir : Path.dir t.path = place double (root ++ front) := by
      rw [hjoined, dir_join (isSeat_place double habove) hname]
    rw [Variable.value, Variable.value, hdir, ← hjoined]
  case relativeFromDirectory =>
    have hdir : Path.dir t.relative = String.intercalate "/" front := by
      rw [hdown, dir_join (isSeat_intercalate hfront) hname]
    rw [Variable.value, Variable.value, hdir, ← hdown]
  case name =>
    have hmade := @base_isMadeOf t.path (by rw [hbase]; exact hname.1)
    rw [hbase] at hmade
    exact hmade

theorem Walk.coherent_of_mem {h : Host} {glob : Glob} {recurse double : Bool} {root : List String}
    {path name : String} {children : List (String × Entry)} {t : Task}
    (hpath : Leads double root [] path) (hwell : (Entry.dir children).WellNamed)
    (ht : t ∈ (tree h glob recurse path [] name (.dir children)).allFiles) : t.Coherent path := by
  rw [← DirNode.files_located] at ht
  obtain ⟨p, hp, rfl⟩ := List.mem_map.mp ht
  obtain ⟨hreach, hfile⟩ := reaches_of_mem hp
  have hroot : path = place double root := by simpa using hpath.path_eq
  have hcoherent :=
    Task.coherent_of_leads (hreach.leads hpath hwell) (DirNode.chain_ne_nil hp) rfl rfl
  rw [hfile]
  exact hroot ▸ hcoherent

namespace Traversal

variable {interrupts : Task → Bool} {t u : Traversal} {files : List Task}

theorem Reaches.subperm (hsteps : Reaches interrupts t u)
    (h : (t.dispatched ++ t.visit.ahead interrupts).Subperm files) :
    (u.dispatched ++ u.visit.ahead interrupts).Subperm files := by
  unfold Reaches at hsteps
  induction hsteps with
  | refl => exact h
  | @tail v w _ hstep ih =>
    rcases hstep with ⟨action, visit, hvisit, rfl⟩ | rfl
    · obtain ⟨lost, hlost⟩ := hvisit.spends
      have hperm : (v.dispatched ++ v.visit.ahead interrupts).Perm
          (v.dispatched ++ action.tasks ++ visit.ahead interrupts ++ lost) := by
        simpa only [List.append_assoc] using hlost.perm.append_left v.dispatched
      exact (List.sublist_append_left _ lost).subperm.trans (hperm.symm.subperm.trans ih)
    · exact ih

theorem Reaches.sent_perm (hsteps : Reaches interrupts t u)
    (h : t.visit.sent.Perm t.dispatched) : u.visit.sent.Perm u.dispatched := by
  unfold Reaches at hsteps
  induction hsteps with
  | refl => exact h
  | tail _ hstep ih =>
    rcases hstep with ⟨action, visit, hvisit, rfl⟩ | rfl
    · exact hvisit.sent_perm.trans (ih.append_right action.tasks)
    · exact ih

/-- No scan hands on a file, or keeps one in its tree, that is not in the tree of its survey. -/
theorem Reaches.mem_allFiles {name : String} {survey : Survey} {cancelled : Bool}
    (hsteps : Reaches interrupts { visit := .waiting name survey, cancelled } t) {f : Task}
    (hf : f ∈ t.dispatched ++ t.visit.sent) : f ∈ (survey.tree name).allFiles := by
  have hdispatched : f ∈ t.dispatched := by
    rcases List.mem_append.mp hf with hf | hf
    · exact hf
    · exact (hsteps.sent_perm (List.Perm.refl [])).subset hf
  have hoffered := hsteps.subperm (List.Subperm.refl _)
  exact ((survey.tree name).offered_sublist interrupts).subset
    (hoffered.subset (List.mem_append_left _ hdispatched))

end Traversal

namespace Scan

/-- Whatever files a scan lists, hands on or returns, in whatever schedule, cancelled or broken off
at whatever moment: what the markers of each stand for fits together. -/
theorem scanned_files_coherent {h : Host} {request : ScanRequest}
    {children : List (String × Entry)} {glob : Glob} (hcwd : Path.isAbsolute h.cwd = true)
    (hdir : h.entry? (h.absolute request.root) = some (.dir children))
    (hglob : Glob.compile? request.pattern = some glob) (hwell : (Entry.dir children).WellNamed)
    (cancelled : Bool) :
    let root := h.absolute request.root
    let survey := Survey.ofEntry h ⟨root, glob, request.recurse⟩ root (.dir children)
    (∀ t ∈ (survey.tree root).allFiles, t.Coherent root) ∧
    (∀ interrupts s, Traversal.Reaches interrupts { visit := .waiting root survey, cancelled } s →
      ∀ t ∈ s.dispatched ++ s.visit.sent, t.Coherent root) ∧
    ∀ reply, ∃ outcome, run h request reply cancelled = .ok outcome ∧
      (∀ t ∈ outcome.state.dispatched, t.Coherent root) ∧
      ∀ node ∈ outcome.tree, ∀ t ∈ node.allFiles, t.Coherent root := by
  intro root survey
  obtain ⟨double, names, -, hleads⟩ := exists_leads_of_absolute hcwd request.root
  have hlisted : ∀ t ∈ (survey.tree root).allFiles, t.Coherent root := by
    intro t ht
    rw [tree_survey hcwd glob request.recurse request.root hwell] at ht
    exact Walk.coherent_of_mem hleads hwell ht
  have hreached : ∀ interrupts s,
      Traversal.Reaches interrupts { visit := .waiting root survey, cancelled } s →
      ∀ t ∈ s.dispatched ++ s.visit.sent, t.Coherent root :=
    fun _ _ hsteps t ht => hlisted t (hsteps.mem_allFiles ht)
  refine ⟨hlisted, hreached, fun reply => ?_⟩
  obtain ⟨outcome, v, hrun, hends, hsteps⟩ := exists_run rfl hdir hglob reply cancelled
  refine ⟨outcome, hrun, ?_, ?_⟩
  · exact fun t ht => hreached _ _ hsteps t (List.mem_append_left _ ht)
  · intro node hnode t ht
    rw [show outcome.tree = some node from hnode] at hends
    obtain rfl : v = .returned node := hends
    exact hreached _ _ hsteps t (List.mem_append_right _ ht)

/-- Dots before a name, in it and behind it, in a directory with a dot, below the root of all. -/
theorem scanned_files_coherent_with_dots :
    let children : List (String × Entry) :=
      [("v1.d", .dir [("...a.b.", .file [] 0), ("a.tar.gz", .file [] 0)]), (".rc", .file [] 0)]
    let h : Host := { root := .dir children, cwd := "/", environment := ⟨[], [], "/"⟩ }
    let request : ScanRequest := { root := "/", pattern := "*" }
    let dotted : Task := { path := "/v1.d/...a.b.", relative := "v1.d/...a.b.", name := "...a.b." }
    (∃ outcome, run h request (fun _ => .go) false = .ok outcome ∧
        (∀ t ∈ outcome.state.dispatched, t.Coherent "/") ∧
        ∀ node ∈ outcome.tree, ∀ t ∈ node.allFiles, t.Coherent "/") ∧
      dotted.Coherent "/" ∧ Variable.all.map (Variable.value dotted) =
        ["...a.b", "", "/v1.d/...a.b.", "/v1.d", "v1.d/...a.b.", "v1.d"] := by
  intro children h request dotted
  have hcwd : Path.isAbsolute h.cwd = true := by decide +kernel
  have hroot : h.absolute request.root = "/" := by decide +kernel
  have hdir : h.entry? (h.absolute request.root) = some (.dir children) := by
    rw [hroot]
    rfl
  have hwell : (Entry.dir children).WellNamed := by
    simp [children, Entry.WellNamed, Entry.AllWellNamed]
    decide +kernel
  have hglob : Glob.compile? request.pattern = some ⟨[.anyText]⟩ := by decide +kernel
  obtain ⟨hlisted, -, hruns⟩ := scanned_files_coherent hcwd hdir hglob hwell false
  rw [tree_survey hcwd _ request.recurse request.root hwell] at hlisted
  rw [hroot] at hlisted hruns
  have hreach : Walk.Reaches h ⟨[.anyText]⟩ true "/" children ["v1.d", "...a.b."] := by
    have hbelow : Walk.Reaches h ⟨[.anyText]⟩ true (Path.join "/" "v1.d")
        [("...a.b.", .file [] 0), ("a.tar.gz", .file [] 0)] ["...a.b."] :=
      @Walk.Reaches.file _ _ _ _ _ ("...a.b.", .file [] 0) (by decide +kernel) (by simp)
        (by decide +kernel) rfl
    exact .deeper rfl (by decide +kernel) (by simp [children]) hbelow
  have hmem := List.mem_map_of_mem (f := Prod.snd) (Walk.mem_of_reaches hreach [] "/")
  rw [DirNode.files_located] at hmem
  have hfile : Walk.fileAt "/" [] ["v1.d", "...a.b."] = dotted := by decide +kernel
  refine ⟨hruns _, ?_, by decide +kernel⟩
  rw [← hfile]
  exact hlisted _ hmem

end Scan
end FileSweep
