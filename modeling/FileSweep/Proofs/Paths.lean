import FileSweep.Proofs.Places

/-! Absolute normalized paths are places. Normalizing a path reads its components as text: a dot
stays, two dots take back the name before them, and any other component is a name. So the absolute
form of a path is a place whose names are told by the components, and the way down from a directory
is the chain of names between them. -/
namespace FileSweep
namespace Path

/-- The names that one component leads to from the names `here`. -/
def enter (here : List String) (part : String) : List String :=
  if part = "" ∨ part = "." then here
  else if part = ".." then here.dropLast
  else here ++ [part]

def descend (here parts : List String) : List String := parts.foldl enter here

@[simp] theorem descend_nil (here : List String) : descend here [] = here := rfl
@[simp] theorem descend_cons (here : List String) (part : String) (parts : List String) :
    descend here (part :: parts) = descend (enter here part) parts := rfl

theorem descend_append (here front back : List String) :
    descend here (front ++ back) = descend (descend here front) back := List.foldl_append

theorem enter_stay {part : String} (h : part = "" ∨ part = ".") (here : List String) :
    enter here part = here := if_pos h

theorem enter_name {part : String} (h : IsName part) (here : List String) :
    enter here part = here ++ [part] := by
  rw [enter, if_neg (not_or.mpr ⟨h.1, h.2.2.1⟩), if_neg h.2.2.2]

theorem descend_names (here : List String) {names : List String} (h : ∀ n ∈ names, IsName n) :
    descend here names = here ++ names := by
  induction names generalizing here with
  | nil => simp
  | cons name names ih =>
    rw [descend_cons, enter_name (h name (by simp)), ih _ fun n hn => h n (List.mem_cons_of_mem name hn)]
    simp

theorem descend_blank (here : List String) {blank : List String} (h : ∀ n ∈ blank, n = "") :
    descend here blank = here := by
  induction blank with
  | nil => rfl
  | cons part blank ih =>
    rw [descend_cons, enter_stay (Or.inl (h part (by simp))),
      ih fun n hn => h n (List.mem_cons_of_mem part hn)]

theorem isName_enter {here : List String} {part : String} (hhere : ∀ n ∈ here, IsName n)
    (hpart : '/' ∉ part.toList) : ∀ n ∈ enter here part, IsName n := by
  unfold enter
  split
  next => exact hhere
  next hkeep =>
    split
    next => exact fun n hn => hhere n (List.dropLast_subset here hn)
    next hdots =>
      rw [not_or] at hkeep
      intro n hn
      rcases List.mem_append.mp hn with hn | hn
      · exact hhere n hn
      · rw [List.mem_singleton.mp hn]
        exact ⟨hkeep.1, hpart, hkeep.2, hdots⟩

theorem isName_descend {here parts : List String} (hhere : ∀ n ∈ here, IsName n)
    (hparts : ∀ n ∈ parts, '/' ∉ n.toList) : ∀ n ∈ descend here parts, IsName n := by
  induction parts generalizing here with
  | nil => exact hhere
  | cons part parts ih =>
    exact ih (isName_enter hhere (hparts part (by simp)))
      fun n hn => hparts n (List.mem_cons_of_mem part hn)

/-- The names as the stack that a path is normalized with, the last one on top. -/
def stackOf (names : List String) : List (List Char) := (names.map String.toList).reverse

theorem pushComponent_stackOf {here : List String} (hhere : ∀ n ∈ here, IsName n) (part : String) :
    pushComponent true (stackOf here) part.toList = stackOf (enter here part) := by
  have hempty : part.toList = [] ↔ part = "" := String.toList_eq_nil_iff
  have hdot : part.toList = ['.'] ↔ part = "." := @String.toList_inj part "."
  have hdots : part.toList = ['.', '.'] ↔ part = ".." := @String.toList_inj part ".."
  simp only [pushComponent.eq_def, enter, hempty, hdot, hdots]
  split
  next => rfl
  next =>
    split
    next =>
      rcases List.eq_nil_or_concat here with rfl | ⟨front, last, rfl⟩
      · rfl
      · have hlast : last.toList ≠ ['.', '.'] := fun h =>
          (hhere last (by simp)).2.2.2 (String.toList_inj.mp h)
        simp [stackOf, hlast]
    next => simp [stackOf]

theorem foldl_pushComponent_stackOf {here parts : List String} (hhere : ∀ n ∈ here, IsName n)
    (hparts : ∀ n ∈ parts, '/' ∉ n.toList) :
    (parts.map String.toList).foldl (pushComponent true) (stackOf here) =
      stackOf (descend here parts) := by
  induction parts generalizing here with
  | nil => rfl
  | cons part parts ih =>
    rw [List.map_cons, List.foldl_cons, pushComponent_stackOf hhere, descend_cons]
    exact ih (isName_enter hhere (hparts part (by simp)))
      fun n hn => hparts n (List.mem_cons_of_mem part hn)

theorem rootChars_lead (double : Bool) {cs : List Char} (h : cs.head? ≠ some '/') :
    rootChars (lead double ++ cs) = lead double := by
  cases cs with
  | nil => cases double <;> rfl
  | cons c cs =>
    have hc : c ≠ '/' := by simpa using h
    cases double <;> simp [lead, rootChars, hc]

theorem head_joinComponents {names : List String} (h : ∀ n ∈ names, IsName n) :
    (joinComponents (names.map String.toList)).head? ≠ some '/' := by
  cases names with
  | nil => simp
  | cons name names =>
    obtain ⟨hempty, hslash, -, -⟩ := h name (by simp)
    have hfirst : ∀ tail, (name.toList ++ tail).head? ≠ some '/' := by
      intro tail
      cases hchars : name.toList with
      | nil => exact absurd (by simpa using hchars) hempty
      | cons c cs =>
        rw [hchars] at hslash
        simp only [List.mem_cons, not_or] at hslash
        simpa using Ne.symm hslash.1
    cases names with
    | nil =>
      rw [List.map_cons, List.map_nil, joinComponents_singleton]
      simpa using hfirst []
    | cons next names =>
      rw [List.map_cons, List.map_cons, joinComponents_cons_cons]
      exact hfirst _

theorem normalize_of_rootChars {double : Bool} {p : String}
    (hroot : rootChars p.toList = lead double) :
    normalize p = place double (descend [] (Host.parts p)) := by
  have hrooted : (!(lead double).isEmpty) = true := by cases double <;> rfl
  have hstack : (componentsChars p.toList).foldl (pushComponent true) [] =
      stackOf (descend [] (Host.parts p)) := by
    rw [← map_toList_parts]
    exact @foldl_pushComponent_stackOf [] (Host.parts p) (by simp) fun n => not_mem_of_mem_parts
  have hempty : ∀ cs, (lead double ++ cs).isEmpty = false := by cases double <;> simp [lead]
  rw [normalize, normalizeChars, hroot, hrooted, hstack, stackOf, List.reverse_reverse,
    if_neg (by simp [hempty]), place]

theorem normalize_place (double : Bool) {names : List String} (h : ∀ n ∈ names, IsName n) :
    normalize (place double names) = place double names := by
  obtain ⟨blank, hblank, hparts⟩ := parts_place double h
  have hroot : rootChars (place double names).toList = lead double := by
    rw [place, String.toList_ofList, rootChars_lead double (head_joinComponents h)]
  rw [normalize_of_rootChars hroot, hparts, descend_append, descend_blank [] hblank,
    descend_names [] h, List.nil_append]

theorem normalize_eq_place {p : String} (h : isAbsolute p = true) :
    ∃ double, normalize p = place double (descend [] (Host.parts p)) := by
  have hroot : ∃ double, rootChars p.toList = lead double := by
    rw [isAbsolute, beq_iff_eq] at h
    obtain ⟨rest, hrest⟩ := List.head?_eq_some_iff.mp h
    rw [hrest, rootChars.eq_def]
    split
    next => exact ⟨false, rfl⟩
    next => exact ⟨true, rfl⟩
    next => exact ⟨false, rfl⟩
    next hnone => exact absurd rfl (hnone rest)
  obtain ⟨double, hroot⟩ := hroot
  exact ⟨double, normalize_of_rootChars hroot⟩

theorem exists_place_of_isAbsolute {p : String} (h : isAbsolute p = true) :
    ∃ (double : Bool) (names : List String), (∀ n ∈ names, IsName n) ∧
      normalize p = place double names := by
  obtain ⟨double, hplace⟩ := normalize_eq_place h
  exact ⟨double, _, isName_descend (by simp) fun n => not_mem_of_mem_parts, hplace⟩

theorem isAbsolute_join {cwd : String} (hcwd : isAbsolute cwd = true) (p : String) :
    isAbsolute (join cwd p) = true := by
  rw [isAbsolute, beq_iff_eq] at hcwd
  obtain ⟨rest, hrest⟩ := List.head?_eq_some_iff.mp hcwd
  rw [isAbsolute, join, String.toList_ofList, joinChars.eq_def]
  split
  next cs hcs => simp [hcs]
  next => split <;> simp [hrest]

theorem exists_place_of_absolute {cwd : String} (hcwd : isAbsolute cwd = true) (p : String) :
    ∃ (double : Bool) (names : List String), (∀ n ∈ names, IsName n) ∧
      absolute cwd p = place double names := by
  rw [absolute]
  refine exists_place_of_isAbsolute ?_
  split
  next hp => exact hp
  next => exact isAbsolute_join hcwd p

/-- The absolute form of a path has the names that its components lead to, from the root or from the
current directory. -/
theorem absolute_eq_place {cwd : String} (habsolute : isAbsolute cwd = true)
    (hnormal : normalize cwd = cwd) (path : String) :
    ∃ double, absolute cwd path =
      place double (descend (Host.startOf path (components cwd)) (Host.parts path)) := by
  rw [absolute, Host.startOf]
  cases hpath : isAbsolute path with
  | true => exact normalize_eq_place hpath
  | false =>
    obtain ⟨leads, names, hnames, hplace⟩ := exists_place_of_isAbsolute habsolute
    rw [hnormal] at hplace
    obtain ⟨double, hjoin⟩ := normalize_eq_place (isAbsolute_join habsolute path)
    obtain ⟨blank, hblank, hparts⟩ := parts_join_place leads hnames hpath
    rw [← hplace] at hparts
    rw [hparts, descend_append, descend_blank [] hblank, descend_append, descend_names [] hnames]
      at hjoin
    refine ⟨double, ?_⟩
    rw [if_neg Bool.false_ne_true, if_neg Bool.false_ne_true, hplace, components_place leads hnames,
      ← hplace, hjoin, List.nil_append]

theorem absolute_absolute {cwd : String} (hcwd : isAbsolute cwd = true) (p : String) :
    absolute cwd (absolute cwd p) = absolute cwd p := by
  obtain ⟨double, names, hnames, hplace⟩ := exists_place_of_absolute hcwd p
  rw [hplace, absolute, if_pos (isAbsolute_place double names), normalize_place double hnames]

theorem dropShared_append (shared rest : List String) :
    dropShared shared (shared ++ rest) = ([], rest) := by
  induction shared with
  | nil => cases rest <;> rfl
  | cons a shared ih => rw [List.cons_append, dropShared, if_pos rfl, ih]

theorem relative_place (double : Bool) {names below : List String} (hne : below ≠ [])
    (h : ∀ n ∈ names ++ below, IsName n) :
    relative (place double (names ++ below)) (place double names) = String.intercalate "/" below := by
  have hnames : ∀ n ∈ names, IsName n := fun n hn => h n (List.mem_append_left below hn)
  rw [relative, normalize_place double h, normalize_place double hnames, components_place double h,
    components_place double hnames, dropShared_append]
  simp [hne]

/-- A path that lies below a root by a chain of names. -/
structure Leads (double : Bool) (root chain : List String) (path : String) : Prop where
  names : ∀ n ∈ root ++ chain, IsName n
  path_eq : path = place double (root ++ chain)

namespace Leads

variable {double : Bool} {root chain : List String} {path name : String}

theorem ne_empty (h : Leads double root chain path) : path ≠ "" := by
  rw [h.path_eq]
  exact place_ne_empty double _

theorem join (h : Leads double root chain path) (hname : IsName name) :
    Leads double root (chain ++ [name]) (Path.join path name) where
  names := by
    intro n hn
    rw [← List.append_assoc] at hn
    rcases List.mem_append.mp hn with hn | hn
    · exact h.names n hn
    · rw [List.mem_singleton.mp hn]; exact hname
  path_eq := by
    rw [h.path_eq, join_place double h.names hname, List.append_assoc]

theorem relative_eq (h : Leads double root chain path) (hne : chain ≠ []) :
    relative path (place double root) = String.intercalate "/" chain := by
  rw [h.path_eq]
  exact relative_place double hne h.names

theorem chain_eq (h : Leads double root chain path) {other : List String}
    (hother : Leads double root other path) : chain = other := by
  have hcomponents := congrArg components (h.path_eq.symm.trans hother.path_eq)
  rw [components_place double h.names, components_place double hother.names] at hcomponents
  exact List.append_cancel_left hcomponents

end Leads

theorem exists_leads_of_absolute {cwd : String} (hcwd : isAbsolute cwd = true) (p : String) :
    ∃ double names, absolute cwd p = place double names ∧
      Leads double names [] (absolute cwd p) := by
  obtain ⟨double, names, hnames, hplace⟩ := exists_place_of_absolute hcwd p
  exact ⟨double, names, hplace, by simpa using hnames, by simpa using hplace⟩

end Path
end FileSweep
