import FileSweep.Host.Basic

/-! Places: one or two slashes and names with single slashes between them. Joining a name to such a
path, taking its last component and cutting it at its slashes all do with the list of names what
their names say. -/
namespace FileSweep
namespace Path

/-- What the entry of a directory can be called. -/
def IsName (name : String) : Prop :=
  name ≠ "" ∧ '/' ∉ name.toList ∧ name ≠ "." ∧ name ≠ ".."

instance isNameDecidable (name : String) : Decidable (IsName name) := by
  unfold IsName; infer_instance

/-- The slashes that an absolute path begins with: the double slash is a root of its own. -/
def lead (double : Bool) : List Char := if double then ['/', '/'] else ['/']

/-- The absolute path with the given names. -/
def place (double : Bool) (names : List String) : String :=
  String.ofList (lead double ++ joinComponents (names.map String.toList))

@[simp] theorem joinComponents_nil : joinComponents [] = [] := rfl
@[simp] theorem joinComponents_singleton (part : List Char) : joinComponents [part] = part := by
  simp [joinComponents]
@[simp] theorem joinComponents_cons_cons (part next : List Char) (parts : List (List Char)) :
    joinComponents (part :: next :: parts) = part ++ '/' :: joinComponents (next :: parts) := by
  simp [joinComponents]

theorem joinComponents_concat {parts : List (List Char)} (h : parts ≠ []) (part : List Char) :
    joinComponents (parts ++ [part]) = joinComponents parts ++ '/' :: part := by
  induction parts with
  | nil => exact absurd rfl h
  | cons first rest ih =>
    cases rest with
    | nil => simp
    | cons next rest =>
      rw [List.cons_append, List.cons_append, joinComponents_cons_cons, joinComponents_cons_cons,
        ← List.cons_append, ih (by simp)]
      simp

theorem getLast?_joinComponents_concat (parts : List (List Char)) {part : List Char}
    (h : part ≠ []) : (joinComponents (parts ++ [part])).getLast? = part.getLast? := by
  have hsome := List.getLast?_eq_some_getLast h
  by_cases hparts : parts = []
  · simp [hparts]
  · simp [joinComponents_concat hparts, List.getLast?_cons, hsome]

theorem getLast?_ne_slash {name : String} (h : IsName name) :
    name.toList.getLast? ≠ some '/' := fun hlast => h.2.1 (List.mem_of_getLast? hlast)

theorem getLast?_joinComponents {names : List String} (h : ∀ n ∈ names, IsName n) :
    (joinComponents (names.map String.toList)).getLast? ≠ some '/' := by
  rcases List.eq_nil_or_concat names with rfl | ⟨front, name, rfl⟩
  · simp
  · have hname : IsName name := h name (by simp)
    rw [List.concat_eq_append, List.map_append, List.map_singleton,
      getLast?_joinComponents_concat _ (by simpa using hname.1)]
    exact getLast?_ne_slash hname

theorem getLast?_place (double : Bool) {names : List String} (h : ∀ n ∈ names, IsName n) :
    (place double names).toList.getLast? = some '/' ↔ names = [] := by
  constructor
  · intro hlast
    rcases List.eq_nil_or_concat names with hnil | ⟨front, name, rfl⟩
    · exact hnil
    · have hname : IsName name := h name (by simp)
      have hne : name.toList ≠ [] := by simpa using hname.1
      rw [List.concat_eq_append, place, String.toList_ofList, List.map_append, List.map_singleton,
        List.getLast?_append, getLast?_joinComponents_concat _ hne,
        List.getLast?_eq_some_getLast hne, Option.some_or, ← List.getLast?_eq_some_getLast hne] at hlast
      exact absurd hlast (getLast?_ne_slash hname)
  · rintro rfl
    cases double <;> rfl

@[simp] theorem empty_join (path : String) : join "" path = path := by
  have hchars : joinChars [] path.toList = path.toList := by
    rw [joinChars.eq_def]
    split <;> simp_all
  rw [join, String.toList_empty, hchars, String.ofList_toList]

theorem toList_join {dir path : String} (hdir : dir ≠ "") (hpath : isAbsolute path = false) :
    (join dir path).toList =
      dir.toList ++ ((if dir.toList.getLast? = some '/' then [] else ['/']) ++ path.toList) := by
  have hslash : ∀ cs, path.toList ≠ '/' :: cs := by
    intro cs hcs
    simp [isAbsolute, hcs] at hpath
  have hempty : dir.toList.isEmpty = false := by simpa using hdir
  rw [join, String.toList_ofList, joinChars.eq_def]
  split
  next cs h => exact absurd h (hslash cs)
  next =>
    by_cases hlast : dir.toList.getLast? = some '/'
    · simp [hlast]
    · simp [hlast, hempty]

theorem IsName.isAbsolute_eq_false {name : String} (h : IsName name) : isAbsolute name = false := by
  rw [Path.isAbsolute, beq_eq_false_iff_ne]
  exact fun hhead => h.2.1 (List.mem_of_head? hhead)

theorem join_eq_append {dir name : String} (hdir : dir ≠ "") (hname : IsName name) :
    join dir name =
      dir ++ (if dir.toList.getLast? = some '/' then "" else "/") ++ name := by
  rw [← String.toList_inj, toList_join hdir hname.isAbsolute_eq_false]
  split <;> simp

theorem place_ne_empty (double : Bool) (names : List String) : place double names ≠ "" := by
  intro h
  have hchars := congrArg String.toList h
  cases double <;> simp [place, lead] at hchars

theorem isAbsolute_place (double : Bool) (names : List String) :
    isAbsolute (place double names) = true := by
  cases double <;> simp [isAbsolute, place, lead]

theorem join_place (double : Bool) {names : List String} {name : String}
    (h : ∀ n ∈ names, IsName n) (hname : IsName name) :
    join (place double names) name = place double (names ++ [name]) := by
  rw [join_eq_append (place_ne_empty double names) hname, ← String.toList_inj]
  by_cases hnil : names = []
  · rw [if_pos ((getLast?_place double h).mpr hnil)]
    simp [hnil, place]
  · rw [if_neg fun hlast => hnil ((getLast?_place double h).mp hlast)]
    have hparts : names.map String.toList ≠ [] := by simpa using hnil
    have hconcat := joinComponents_concat hparts name.toList
    simp [place, hconcat]

theorem baseChars_of_slash {name : List Char} (h : '/' ∉ name) (prior : List Char) :
    baseChars (prior ++ '/' :: name) = name := by
  have htake : ((prior ++ '/' :: name).reverse.takeWhile (· != '/')) = name.reverse := by
    rw [List.reverse_append, List.reverse_cons, List.append_assoc, List.takeWhile_append_of_pos]
    · simp
    · intro c hc
      have hne : c ≠ '/' := by
        rintro rfl
        exact h (List.mem_reverse.mp hc)
      simpa using hne
  rw [baseChars, htake, List.reverse_reverse]

theorem base_join {dir name : String} (hdir : dir ≠ "") (hname : IsName name) :
    base (join dir name) = name := by
  have hprior : ∃ prior, (join dir name).toList = prior ++ '/' :: name.toList := by
    rw [join_eq_append hdir hname]
    by_cases hlast : dir.toList.getLast? = some '/'
    · obtain ⟨front, hfront⟩ := List.getLast?_eq_some_iff.mp hlast
      exact ⟨front, by simp [hfront]⟩
    · exact ⟨dir.toList, by simp [hlast]⟩
  obtain ⟨prior, h⟩ := hprior
  rw [base, h, baseChars_of_slash hname.2.1, String.ofList_toList]

/-- Paths in one directory are ordered as their names are. -/
theorem join_le_join {dir a b : String} (hdir : dir ≠ "") (ha : IsName a) (hb : IsName b) :
    join dir a ≤ join dir b ↔ a ≤ b := by
  have hshared : ∀ front x y : List Char, front ++ x < front ++ y ↔ x < y := by
    intro front x y
    induction front with
    | nil => rfl
    | cons c front ih =>
      rw [List.cons_append, List.cons_append, List.cons_lt_cons_iff]
      simp [ih]
  have horder : ∀ x y : String, x ≤ y ↔ ¬ y.toList < x.toList := fun _ _ => Iff.rfl
  rw [join_eq_append hdir ha, join_eq_append hdir hb, horder, horder, String.toList_append,
    String.toList_append (t := a)]
  exact not_congr (hshared _ _ _)

theorem componentsChars_ne_nil (cs : List Char) : componentsChars cs ≠ [] := by
  cases cs with
  | nil => simp [componentsChars]
  | cons c cs =>
    rw [componentsChars]
    split
    · simp
    · split
      · simp
      · simp

theorem componentsChars_slash (cs rest : List Char) :
    componentsChars (cs ++ '/' :: rest) = componentsChars cs ++ componentsChars rest := by
  induction cs with
  | nil => simp [componentsChars]
  | cons c cs ih =>
    obtain ⟨part, parts, hparts⟩ := List.exists_cons_of_ne_nil (componentsChars_ne_nil cs)
    rw [List.cons_append, componentsChars, componentsChars, ih, hparts]
    split <;> rfl

theorem componentsChars_of_not_mem {cs : List Char} (h : '/' ∉ cs) : componentsChars cs = [cs] := by
  induction cs with
  | nil => rfl
  | cons c cs ih =>
    simp only [List.mem_cons, not_or] at h
    rw [componentsChars, ih h.2, if_neg (Ne.symm h.1)]

theorem not_mem_of_mem_componentsChars {cs part : List Char} (h : part ∈ componentsChars cs) :
    '/' ∉ part := by
  induction cs generalizing part with
  | nil =>
    have hpart : part = [] := by simpa [componentsChars] using h
    simp [hpart]
  | cons c cs ih =>
    obtain ⟨first, parts, hparts⟩ := List.exists_cons_of_ne_nil (componentsChars_ne_nil cs)
    rw [componentsChars, hparts] at h
    rw [hparts] at ih
    split at h
    next hc =>
      rcases List.mem_cons.mp h with rfl | hmem
      · simp
      · exact ih hmem
    next hc =>
      rcases List.mem_cons.mp h with rfl | hmem
      · simpa [Ne.symm hc] using ih List.mem_cons_self
      · exact ih (List.mem_cons_of_mem _ hmem)

theorem componentsChars_joinComponents {parts : List (List Char)} (hne : parts ≠ [])
    (h : ∀ part ∈ parts, '/' ∉ part) : componentsChars (joinComponents parts) = parts := by
  induction parts with
  | nil => exact absurd rfl hne
  | cons part parts ih =>
    have hpart := componentsChars_of_not_mem (h part (by simp))
    cases parts with
    | nil => rw [joinComponents_singleton, hpart]
    | cons next parts =>
      rw [joinComponents_cons_cons, componentsChars_slash, hpart,
        ih (by simp) fun p hp => h p (List.mem_cons_of_mem part hp)]
      rfl

theorem componentsChars_lead (double : Bool) (cs : List Char) :
    componentsChars (lead double ++ cs) =
      (if double then [[], []] else [[]]) ++ componentsChars cs := by
  cases double <;> simp [lead, componentsChars]

/-- The components of a path are empty ones for its leading slashes, and its names. -/
theorem componentsChars_place (double : Bool) {names : List String} (h : ∀ n ∈ names, IsName n) :
    ∃ blank : List (List Char), (∀ part ∈ blank, part = []) ∧
      componentsChars (place double names).toList = blank ++ names.map String.toList := by
  rw [place, String.toList_ofList, componentsChars_lead]
  by_cases hnil : names = []
  · refine ⟨(if double then [[], []] else [[]]) ++ [[]], ?_, by simp [hnil, componentsChars]⟩
    cases double <;> simp
  · have hslash : ∀ part ∈ names.map String.toList, '/' ∉ part := by
      intro part hpart
      obtain ⟨n, hn, rfl⟩ := List.mem_map.mp hpart
      exact (h n hn).2.1
    rw [componentsChars_joinComponents (by simpa using hnil) hslash]
    refine ⟨if double then [[], []] else [[]], ?_, rfl⟩
    cases double <;> simp

theorem components_place (double : Bool) {names : List String} (h : ∀ n ∈ names, IsName n) :
    components (place double names) = names := by
  obtain ⟨blank, hblank, hparts⟩ := componentsChars_place double h
  have hdropped : blank.filter (fun c => !c.isEmpty) = [] := by
    rw [List.filter_eq_nil_iff]
    intro part hpart
    simp [hblank part hpart]
  have hkept : (names.map String.toList).filter (fun c => !c.isEmpty) = names.map String.toList := by
    rw [List.filter_eq_self]
    intro part hpart
    obtain ⟨n, hn, rfl⟩ := List.mem_map.mp hpart
    simpa using (h n hn).1
  rw [components, hparts, List.filter_append, hdropped, hkept]
  simp [Function.comp_def]

theorem not_mem_of_mem_parts {path part : String} (h : part ∈ Host.parts path) :
    '/' ∉ part.toList := by
  obtain ⟨chars, hchars, rfl⟩ := List.mem_map.mp h
  rw [String.toList_ofList]
  exact not_mem_of_mem_componentsChars hchars

theorem parts_ne_nil (path : String) : Host.parts path ≠ [] := by
  simp [Host.parts, componentsChars_ne_nil]

@[simp] theorem map_toList_parts (path : String) :
    (Host.parts path).map String.toList = componentsChars path.toList := by
  simp [Host.parts, Function.comp_def]

theorem parts_place (double : Bool) {names : List String} (h : ∀ n ∈ names, IsName n) :
    ∃ blank : List String, (∀ part ∈ blank, part = "") ∧
      Host.parts (place double names) = blank ++ names := by
  obtain ⟨blank, hblank, hparts⟩ := componentsChars_place double h
  refine ⟨blank.map String.ofList, ?_, by simp [Host.parts, hparts, Function.comp_def]⟩
  intro part hpart
  obtain ⟨chars, hchars, rfl⟩ := List.mem_map.mp hpart
  rw [hblank chars hchars]

theorem parts_join_place (double : Bool) {names : List String} (h : ∀ n ∈ names, IsName n)
    {path : String} (hpath : isAbsolute path = false) :
    ∃ blank : List String, (∀ part ∈ blank, part = "") ∧
      Host.parts (join (place double names) path) = blank ++ (names ++ Host.parts path) := by
  have hjoin := toList_join (place_ne_empty double names) hpath
  by_cases hnil : names = []
  · subst hnil
    have hlead : (place double []).toList = lead double := by simp [place]
    rw [if_pos ((getLast?_place double h).mpr rfl), hlead] at hjoin
    refine ⟨if double then ["", ""] else [""], by cases double <;> simp, ?_⟩
    rw [Host.parts, hjoin, componentsChars_lead]
    cases double <;> simp [Host.parts]
  · obtain ⟨blank, hblank, hparts⟩ := parts_place double h
    refine ⟨blank, hblank, ?_⟩
    rw [if_neg fun hlast => hnil ((getLast?_place double h).mp hlast)] at hjoin
    rw [Host.parts, hjoin, List.singleton_append, componentsChars_slash, List.map_append, ← Host.parts,
      ← Host.parts, hparts, List.append_assoc]

end Path
end FileSweep
