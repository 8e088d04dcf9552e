import FileSweep.Proofs.Visits
import Mathlib.Data.List.Basic

/-! The listing of a tree. The directories and files of a tree in pre-order are its rows. A listing
shows the row of the root and, of the others, those of the files and of the directories that have a
file below them. It goes by the counts, which are kept apart from the files, so it needs them to be
right. -/
namespace FileSweep

namespace DirNode

mutual

def nodes : DirNode → List DirNode
  | ⟨name, files, dirs, count⟩ => ⟨name, files, dirs, count⟩ :: nodesOf dirs

def nodesOf : List DirNode → List DirNode
  | [] => []
  | d :: ds => nodes d ++ nodesOf ds

end

def hasFiles (d : DirNode) : Bool := !d.allFiles.isEmpty

inductive Row where
  | dir (depth : Nat) (node : DirNode)
  | file (depth : Nat) (task : Task)

namespace Row

def text : Row → String
  | dir depth node => indent depth ++ node.name ++ "/"
  | file depth task => indent depth ++ task.name

def dir? : Row → Option DirNode
  | dir _ node => some node
  | file _ _ => none

def file? : Row → Option Task
  | dir _ _ => none
  | file _ task => some task

/-- Whether a row below the root is shown: that of a directory only if it has a file. -/
def shown : Row → Bool
  | dir _ node => node.hasFiles
  | file _ _ => true

theorem file?_shown (rows : List Row) :
    (rows.filter shown).filterMap file? = rows.filterMap file? := by
  rw [List.filterMap_filter]
  apply List.filterMap_congr
  intro row _
  cases row with
  | dir depth d => simp [file?]
  | file depth t => rfl

theorem dir?_shown (rows : List Row) :
    (rows.filter shown).filterMap dir? = (rows.filterMap dir?).filter hasFiles := by
  rw [List.filterMap_filter, List.filter_filterMap]
  apply List.filterMap_congr
  intro row _
  cases row with
  | dir depth d => cases h : d.hasFiles <;> simp [shown, dir?, h, Option.filter]
  | file depth t => rfl

theorem length_eq (rows : List Row) :
    rows.length = (rows.filterMap dir?).length + (rows.filterMap file?).length := by
  induction rows with
  | nil => rfl
  | cons row rows ih =>
    cases row with
    | dir depth d =>
      rw [List.filterMap_cons_some (show dir? (dir depth d) = some d from rfl),
        List.filterMap_cons_none (show file? (dir depth d) = none from rfl), List.length_cons,
        List.length_cons, ih]
      omega
    | file depth t =>
      rw [List.filterMap_cons_none (show dir? (file depth t) = none from rfl),
        List.filterMap_cons_some (show file? (file depth t) = some t from rfl), List.length_cons,
        List.length_cons, ih]
      omega

end Row

mutual

/-- The rows of a tree in pre-order, the root at the given depth. -/
def rows (depth : Nat) : DirNode → List Row
  | ⟨name, files, dirs, count⟩ =>
    .dir depth ⟨name, files, dirs, count⟩ ::
      (files.map (Row.file (depth + 1)) ++ rowsOf (depth + 1) dirs)

def rowsOf (depth : Nat) : List DirNode → List Row
  | [] => []
  | d :: ds => rows depth d ++ rowsOf depth ds

end

def rowsBelow (depth : Nat) (d : DirNode) : List Row :=
  d.files.map (Row.file (depth + 1)) ++ rowsOf (depth + 1) d.dirs

theorem rows_eq (depth : Nat) (d : DirNode) : d.rows depth = .dir depth d :: d.rowsBelow depth := by
  cases d
  rfl

mutual

theorem filterMap_file?_rows (depth : Nat) : (d : DirNode) →
    (d.rows depth).filterMap Row.file? = d.allFiles
  | ⟨name, files, dirs, count⟩ => by
    have hdirs := filterMap_file?_rowsOf (depth + 1) dirs
    have hhere : (files.map (Row.file (depth + 1))).filterMap Row.file? = files := by
      rw [List.filterMap_map]
      exact List.filterMap_some
    rw [rows, List.filterMap_cons_none (by rfl), List.filterMap_append, hhere, hdirs, allFiles]

theorem filterMap_file?_rowsOf (depth : Nat) : (ds : List DirNode) →
    (rowsOf depth ds).filterMap Row.file? = allFilesOf ds
  | [] => rfl
  | d :: ds => by
    have hfirst := filterMap_file?_rows depth d
    have hrest := filterMap_file?_rowsOf depth ds
    simp [rowsOf, allFilesOf, hfirst, hrest]

end

mutual

theorem filterMap_dir?_rows (depth : Nat) : (d : DirNode) →
    (d.rows depth).filterMap Row.dir? = d.nodes
  | ⟨name, files, dirs, count⟩ => by
    have hdirs := filterMap_dir?_rowsOf (depth + 1) dirs
    have hhere : (files.map (Row.file (depth + 1))).filterMap Row.dir? = [] := by
      rw [List.filterMap_map, List.filterMap_eq_nil_iff]
      intro t _
      rfl
    rw [rows, List.filterMap_cons_some (by rfl), List.filterMap_append, hhere, hdirs, nodes,
      List.nil_append]

theorem filterMap_dir?_rowsOf (depth : Nat) : (ds : List DirNode) →
    (rowsOf depth ds).filterMap Row.dir? = nodesOf ds
  | [] => rfl
  | d :: ds => by
    have hfirst := filterMap_dir?_rows depth d
    have hrest := filterMap_dir?_rowsOf depth ds
    simp [rowsOf, nodesOf, hfirst, hrest]

end

mutual

theorem filter_rows_of_empty (depth : Nat) : (d : DirNode) → d.allFiles = [] →
    (d.rows depth).filter Row.shown = []
  | ⟨name, files, dirs, count⟩, h => by
    have hboth := h
    rw [allFiles, List.append_eq_nil_iff] at hboth
    obtain ⟨rfl, hdirs⟩ := hboth
    have hnone : hasFiles ⟨name, [], dirs, count⟩ = false := by simp [hasFiles, h]
    simp [rows, Row.shown, hnone, filter_rowsOf_of_empty (depth + 1) dirs hdirs]

theorem filter_rowsOf_of_empty (depth : Nat) : (ds : List DirNode) → allFilesOf ds = [] →
    (rowsOf depth ds).filter Row.shown = []
  | [], _ => rfl
  | d :: ds, h => by
    rw [allFilesOf, List.append_eq_nil_iff] at h
    rw [rowsOf, List.filter_append, filter_rows_of_empty depth d h.1,
      filter_rowsOf_of_empty depth ds h.2, List.append_nil]

end

theorem Counted.count_pos_iff {d : DirNode} (h : d.Counted) : 0 < d.count ↔ d.hasFiles = true := by
  rw [h.count_eq, hasFiles]
  cases d.allFiles <;> simp

mutual

/-- Where the counts are right, a listing shows the rows of its tree. -/
theorem listingFrom_eq (depth : Nat) : (d : DirNode) → d.Counted →
    d.listingFrom depth = (Row.dir depth d :: (d.rowsBelow depth).filter Row.shown).map Row.text
  | ⟨name, files, dirs, count⟩, h => by
    have hdirs := listingsFrom_eq (depth + 1) dirs h.2
    have hfiles : (files.map (Row.file (depth + 1))).filter Row.shown =
        files.map (Row.file (depth + 1)) := by
      rw [List.filter_eq_self]
      intro row hrow
      obtain ⟨t, -, rfl⟩ := List.mem_map.mp hrow
      rfl
    rw [listingFrom, rowsBelow, List.filter_append, hfiles, hdirs]
    simp [Row.text, Function.comp_def]

theorem listingsFrom_eq (depth : Nat) : (ds : List DirNode) → AllCounted ds →
    listingsFrom depth ds = ((rowsOf depth ds).filter Row.shown).map Row.text
  | [], _ => rfl
  | d :: ds, h => by
    have hrest := listingsFrom_eq depth ds h.2
    rw [listingsFrom, rowsOf, List.filter_append, List.map_append, hrest]
    congr 1
    by_cases hfiles : d.hasFiles = true
    · have hrow : Row.shown (.dir depth d) = true := hfiles
      rw [if_pos (h.1.count_pos_iff.mpr hfiles), rows_eq, List.filter_cons_of_pos hrow]
      exact listingFrom_eq depth d h.1
    · have hnone : d.allFiles = [] := by simpa [hasFiles] using hfiles
      rw [if_neg (mt h.1.count_pos_iff.mp hfiles), filter_rows_of_empty depth d hnone]
      rfl

end

def listed (d : DirNode) : List Row := .dir 0 d :: (d.rowsBelow 0).filter Row.shown

theorem cons_of_append_eq {α : Type} {xs ys before after : List α} {x : α}
    (h : xs ++ ys = before ++ x :: after) :
    (∃ rest, xs = before ++ x :: rest ∧ after = rest ++ ys) ∨ ∃ front, ys = front ++ x :: after := by
  rcases List.append_eq_append_iff.mp h with ⟨zs, -, hys⟩ | ⟨zs, rfl, hcons⟩
  · exact Or.inr ⟨zs, hys⟩
  · cases zs with
    | nil => exact Or.inr ⟨[], hcons.symm⟩
    | cons z zs =>
      obtain ⟨rfl, hafter⟩ := List.cons.inj hcons
      exact Or.inl ⟨zs, rfl, hafter⟩

mutual

/-- Behind the row of a directory stand the rows of what is below it. -/
theorem behind_rows (depth : Nat) : (d : DirNode) → ∀ {before after : List Row} {k : Nat}
    {e : DirNode}, d.rows depth = before ++ .dir k e :: after → e.rowsBelow k <+: after
  | ⟨name, files, dirs, count⟩, before, after, k, e, h => by
    rw [rows_eq] at h
    cases before with
    | nil =>
      obtain ⟨hdir, hafter⟩ := List.cons.inj h
      cases hdir
      exact hafter ▸ List.prefix_refl _
    | cons row before =>
      have hrest := (List.cons.inj h).2
      rcases cons_of_append_eq hrest with ⟨rest, hfiles, -⟩ | ⟨front, hdirs⟩
      · have hmem : Row.dir k e ∈ files.map (Row.file (depth + 1)) := by rw [hfiles]; simp
        simp at hmem
      · exact behind_rowsOf (depth + 1) dirs hdirs

theorem behind_rowsOf (depth : Nat) : (ds : List DirNode) → ∀ {before after : List Row} {k : Nat}
    {e : DirNode}, rowsOf depth ds = before ++ .dir k e :: after → e.rowsBelow k <+: after
  | [], before, after, k, e, h => by simp [rowsOf] at h
  | d :: ds, before, after, k, e, h => by
    rcases cons_of_append_eq h with ⟨rest, hfirst, rfl⟩ | ⟨front, hlater⟩
    · exact (behind_rows depth d hfirst).trans (List.prefix_append rest _)
    · exact behind_rowsOf depth ds hlater

end

/-- Whether a row stands at the depth of its directory or file, `base` being that of the root. -/
def Row.IsAt (root : DirNode) (base : Nat) : Row → Prop
  | dir depth d => ∃ k, depth = base + k ∧ root.Holds k d
  | file depth t => ∃ k d, depth = base + k + 1 ∧ root.Holds k d ∧ t ∈ d.files

theorem Row.IsAt.deeper {d c : DirNode} {base : Nat} {row : Row} (hc : c ∈ d.dirs)
    (h : row.IsAt c (base + 1)) : row.IsAt d base := by
  cases row with
  | dir depth e =>
    obtain ⟨k, rfl, he⟩ := h
    exact ⟨k + 1, by omega, .deeper hc he⟩
  | file depth t =>
    obtain ⟨k, e, rfl, he, ht⟩ := h
    exact ⟨k + 1, e, by omega, .deeper hc he, ht⟩

mutual

theorem isAt_of_mem (base : Nat) : (d : DirNode) → ∀ row ∈ d.rows base, row.IsAt d base
  | ⟨name, files, dirs, count⟩, row, h => by
    rw [rows_eq, List.mem_cons, rowsBelow, List.mem_append, List.mem_map] at h
    rcases h with rfl | ⟨t, ht, rfl⟩ | h
    · exact ⟨0, rfl, .root _⟩
    · exact ⟨0, _, rfl, .root _, ht⟩
    · obtain ⟨c, hc, hrow⟩ := isAt_of_mem_rowsOf (base + 1) dirs row h
      exact hrow.deeper hc

theorem isAt_of_mem_rowsOf (base : Nat) : (ds : List DirNode) → ∀ row ∈ rowsOf base ds,
    ∃ c ∈ ds, row.IsAt c base
  | [], row, h => by simp [rowsOf] at h
  | d :: ds, row, h => by
    rw [rowsOf, List.mem_append] at h
    rcases h with h | h
    · exact ⟨d, List.mem_cons_self, isAt_of_mem base d row h⟩
    · obtain ⟨c, hc, hrow⟩ := isAt_of_mem_rowsOf base ds row h
      exact ⟨c, List.mem_cons_of_mem d hc, hrow⟩

end

/-- What the rows of a listing tell of a tree: its root first, every file once and in order, and the
directories that have a file, each before what is below it. -/
structure Lists (root : DirNode) (rows : List Row) : Prop where
  first : rows.head? = some (.dir 0 root)
  files : rows.filterMap Row.file? = root.allFiles
  dirs : rows.tail.filterMap Row.dir? = (nodesOf root.dirs).filter hasFiles
  subtree : ∀ before depth d after, rows = before ++ .dir depth d :: after →
    (d.rowsBelow depth).filter Row.shown <+: after
  depth : ∀ row ∈ rows, row.IsAt root 0

theorem filterMap_dir?_rowsBelow (depth : Nat) (d : DirNode) :
    (d.rowsBelow depth).filterMap Row.dir? = nodesOf d.dirs := by
  have hall := filterMap_dir?_rows depth d
  obtain ⟨name, files, dirs, count⟩ := d
  rw [rows_eq, List.filterMap_cons_some (by rfl), nodes] at hall
  exact (List.cons.inj hall).2

theorem lists_listed (d : DirNode) : Lists d d.listed where
  first := rfl
  files := by
    have hall := filterMap_file?_rows 0 d
    rw [rows_eq, List.filterMap_cons_none (by rfl)] at hall
    rw [listed, List.filterMap_cons_none (by rfl), Row.file?_shown, hall]
  dirs := by rw [listed, List.tail_cons, Row.dir?_shown, filterMap_dir?_rowsBelow]
  subtree := by
    intro before depth e after h
    cases before with
    | nil =>
      obtain ⟨hdir, hafter⟩ := List.cons.inj h
      cases hdir
      exact hafter ▸ List.prefix_refl _
    | cons row before =>
      obtain ⟨front, back, hrows, -, hback⟩ := List.filter_eq_append_iff.mp (List.cons.inj h).2
      obtain ⟨skipped, rest, rfl, -, -, rfl⟩ := List.filter_eq_cons_iff.mp hback
      have hall : d.rows 0 = (.dir 0 d :: front ++ skipped) ++ .dir depth e :: rest := by
        rw [rows_eq, hrows]
        simp
      exact (behind_rows 0 d hall).filter _
  depth := by
    intro row hrow
    apply isAt_of_mem 0 d row
    rw [rows_eq]
    rcases List.mem_cons.mp hrow with rfl | hrow
    · exact List.mem_cons_self
    · exact List.mem_cons_of_mem _ (List.mem_filter.mp hrow).1

/-- A listing shows every file once and no directory without files, as long as the counts are right.
Its lines are those of the tree's rows, each indented by two blanks a level, and there are as many as
there are files and directories with files, and one for the root. -/
theorem listing_lists {d : DirNode} (h : d.Counted) :
    d.listing = d.listed.map Row.text ∧ Lists d d.listed ∧
      (d.listing.length : Int) = 1 + (nodesOf d.dirs).countP hasFiles + d.count := by
  have hlines : d.listing = d.listed.map Row.text := listingFrom_eq 0 d h
  have hlists := lists_listed d
  have hdirs : d.listed.filterMap Row.dir? = d :: (nodesOf d.dirs).filter hasFiles := by
    rw [← hlists.dirs, listed, List.filterMap_cons_some (by rfl), List.tail_cons]
  refine ⟨hlines, hlists, ?_⟩
  rw [hlines, List.length_map, Row.length_eq, hdirs, hlists.files, h.count_eq, List.length_cons,
    List.countP_eq_length_filter]
  omega

/-- Directories that hold a file only deep below, and a directory in which there is none. -/
theorem listing_lists_deep :
    let g : Task := { path := "/r/a/b/g", relative := "a/b/g", name := "g" }
    let f : Task := { path := "/r/f", relative := "f", name := "f" }
    let b : DirNode := { name := "b", files := [g], count := 1 }
    let a : DirNode := { name := "a", dirs := [b], count := 1 }
    let d : DirNode :=
      { name := "/r", files := [f], dirs := [a, { name := "c", dirs := [{ name := "e" }] }], count := 2 }
    d.Counted ∧ Lists d d.listed ∧ d.listing = ["/r/", "  f", "  a/", "    b/", "      g"] ∧
      d.listing.length = 1 + (nodesOf d.dirs).countP hasFiles + d.count := by
  intro g f b a d
  have hcounted : d.Counted := by simp [d, a, b, Counted, AllCounted, allFilesOf, allFiles]
  obtain ⟨-, hlists, hlength⟩ := listing_lists hcounted
  exact ⟨hcounted, hlists, by decide +kernel, hlength⟩

end DirNode
end FileSweep
