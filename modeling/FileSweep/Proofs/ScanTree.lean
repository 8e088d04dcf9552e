import FileSweep.Proofs.Located

/-! What a scan returns: in every schedule the tree of the plain walk, which tells of every
file that can be reached, once and by its chain of names. -/
namespace FileSweep

open Relation

/-- What a tree tells of the files below a directory: their number at every node, and each that
can be reached once, under the chain of names that leads to it. -/
structure Walk.Exact (h : Host) (glob : Glob) (recurse : Bool) (root : String)
    (children : List (String × Entry)) (tree : DirNode) : Prop where
  counted : tree.Counted
  files : tree.located.map Prod.snd = tree.allFiles
  once : (tree.located.map Prod.fst).Nodup
  reached : ∀ chain t, (chain, t) ∈ tree.located ↔
    Walk.Reaches h glob recurse root children chain ∧ t = Walk.fileAt root [] chain

theorem Walk.exact_tree (h : Host) (glob : Glob) (recurse : Bool) (root : String)
    {children : List (String × Entry)} (hwell : (Entry.dir children).WellNamed) :
    Exact h glob recurse root children (tree h glob recurse root [] root (.dir children)) where
  counted := counted_tree root [] root (.dir children)
  files := DirNode.files_located _
  once := DirNode.nodup_located _ (distinct_tree hwell)
  reached := by
    intro chain t
    constructor
    · exact fun hmem => reaches_of_mem hmem
    · rintro ⟨hreach, rfl⟩
      exact mem_of_reaches hreach [] root

namespace Scan

theorem tree_survey {h : Host} (hcwd : Path.isAbsolute h.cwd = true) (glob : Glob) (recurse : Bool)
    (path : String) {children : List (String × Entry)} (hwell : (Entry.dir children).WellNamed) :
    let root := h.absolute path
    (Survey.ofEntry h ⟨root, glob, recurse⟩ root (.dir children)).tree root =
      Walk.tree h glob recurse root [] root (.dir children) := by
  obtain ⟨double, names, hroot, hleads⟩ := Path.exists_leads_of_absolute hcwd path
  have habsolute : h.absolute path = Path.place double names := hroot
  rw [hroot] at hleads
  simp only [habsolute]
  exact Walk.tree_ofEntry hleads _ hwell

theorem nodup_paths_tree {h : Host} (hcwd : Path.isAbsolute h.cwd = true) (glob : Glob)
    (recurse : Bool) (path : String) {children : List (String × Entry)}
    (hwell : (Entry.dir children).WellNamed) :
    let root := h.absolute path
    ((Walk.tree h glob recurse root [] root (.dir children)).allFiles.map Task.path).Nodup := by
  obtain ⟨double, names, -, hleads⟩ := Path.exists_leads_of_absolute hcwd path
  exact Walk.nodup_paths _ hleads hwell

theorem run_go {h : Host} {request : ScanRequest} {children : List (String × Entry)} {glob : Glob}
    {reply : Task → Reply} {root : String} (hroot : h.absolute request.root = root)
    (hdir : h.entry? root = some (.dir children))
    (hglob : Glob.compile? request.pattern = some glob) (hgo : ∀ t, reply t = .go) :
    ∃ s, run h request reply false =
      .ok ⟨some ((Survey.ofEntry h ⟨root, glob, request.recurse⟩ root (.dir children)).tree root),
        s⟩ := by
  obtain ⟨started, -, hgoing, hrun⟩ := exists_run_eq hroot hdir hglob reply false
  obtain ⟨s, hvisit, -⟩ := visit_go request.recurse hgo root
    (Survey.ofEntry h ⟨root, glob, request.recurse⟩ root (.dir children)) started hgoing
  obtain ⟨last, hlast, -, -⟩ := hrun _ s hvisit
  exact ⟨last, hlast⟩

/-- Every schedule of a scan that is neither cancelled nor broken off comes to an end and returns
the tree of the plain walk, as does the scan that visits one directory after another. -/
theorem schedules_return_walk {h : Host} {request : ScanRequest} {children : List (String × Entry)}
    {glob : Glob} (hcwd : Path.isAbsolute h.cwd = true)
    (hdir : h.entry? (h.absolute request.root) = some (.dir children))
    (hglob : Glob.compile? request.pattern = some glob) (hwell : (Entry.dir children).WellNamed) :
    let root := h.absolute request.root
    let survey := Survey.ofEntry h ⟨root, glob, request.recurse⟩ root (.dir children)
    let walked := Walk.tree h glob request.recurse root [] root (.dir children)
    (∀ t, ReflTransGen (Traversal.Advance fun _ => false) { visit := .waiting root survey } t →
      t.visit = .returned walked ∨ ∃ u, Traversal.Advance (fun _ => false) t u) ∧
    (∀ schedule : Nat → Traversal,
      ¬ ∀ n, Traversal.Advance (fun _ => false) (schedule n) (schedule (n + 1))) ∧
    (∃ s, run h request (fun _ => .go) false = .ok ⟨some walked, s⟩) ∧
    Walk.Exact h glob request.recurse root children walked := by
  have htree := tree_survey hcwd glob request.recurse request.root hwell
  simp only at htree ⊢
  refine ⟨?_, Traversal.not_endless, ?_, Walk.exact_tree h glob request.recurse _ hwell⟩
  · intro t ht
    have hstart := Traversal.undisturbed_start (h.absolute request.root)
      (Survey.ofEntry h ⟨h.absolute request.root, glob, request.recurse⟩ (h.absolute request.root)
        (.dir children))
    rw [htree] at hstart
    exact (hstart.advances (fun _ => rfl) ht).returned_or_advance _
  · obtain ⟨s, hrun⟩ := run_go rfl hdir hglob fun _ => rfl
    rw [htree] at hrun
    exact ⟨s, hrun⟩

/-- Links to files are followed, beside links that lead back and a directory that refuses its
listing. -/
theorem schedules_return_walk_with_links :
    let children : List (String × Entry) :=
      [("sub", .dir [("g.txt", .file [] 0), ("up", .link ".."), ("l.txt", .link "../f.txt")]),
        ("shut", .dir [("h.txt", .file [] 0)]), ("f.txt", .file [] 0), ("f.log", .file [] 0)]
    let h : Host :=
      { root := .dir [("d", .dir children)], cwd := "/d", environment := ⟨[], [], "/"⟩,
        refused := ["/d/shut"] }
    let request : ScanRequest := { root := ".", pattern := "*.txt" }
    let glob : Glob := ⟨[.anyText, .char '.', .char 't', .char 'x', .char 't']⟩
    Glob.compile? request.pattern = some glob ∧
      (∃ s, run h request (fun _ => .go) false =
        .ok ⟨some (Walk.tree h glob true "/d" [] "/d" (.dir children)), s⟩) ∧
      (["sub", "l.txt"], Walk.fileAt "/d" [] ["sub", "l.txt"]) ∈
        (Walk.tree h glob true "/d" [] "/d" (.dir children)).located := by
  intro children h request glob
  have hcwd : Path.isAbsolute h.cwd = true := by decide +kernel
  have hroot : h.absolute request.root = "/d" := by decide +kernel
  have hdir : h.entry? (h.absolute request.root) = some (.dir children) := by
    rw [hroot]
    rfl
  have hwell : (Entry.dir children).WellNamed := by
    simp [children, Entry.WellNamed, Entry.AllWellNamed]
    decide +kernel
  have hglob : Glob.compile? request.pattern = some glob := by decide +kernel
  have hreach : Walk.Reaches h glob true "/d" children ["sub", "l.txt"] := by
    have hlink : Walk.Reaches h glob true (Path.join "/d" "sub")
        [("g.txt", .file [] 0), ("up", .link ".."), ("l.txt", .link "../f.txt")] ["l.txt"] :=
      @Walk.Reaches.file _ _ _ _ _ ("l.txt", .link "../f.txt") (by decide +kernel) (by simp)
        (by decide +kernel) (by decide +kernel)
    exact .deeper rfl (by decide +kernel) (by simp [children]) hlink
  obtain ⟨-, -, hrun, hexact⟩ := schedules_return_walk hcwd hdir hglob hwell
  rw [hroot] at hrun hexact
  exact ⟨hglob, hrun, (hexact.reached _ _).mpr ⟨hreach, rfl⟩⟩

end Scan
end FileSweep
