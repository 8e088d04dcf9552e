import FileSweep.Proofs.Paths

/-! Resolving a path from the current directory and resolving its absolute form. The absolute form
has no empty components, no dots and no two dots; a walk along it comes to the same entry, unless two
dots stand behind a link, which the walk takes back from where the link leads. -/
namespace FileSweep

namespace Entry

theorem at?_append (e : Entry) (front back : List String) :
    e.at? (front ++ back) = (e.at? front).bind fun d => d.at? back := by
  induction front generalizing e with
  | nil => rfl
  | cons name front ih =>
    rw [List.cons_append, at?, at?]
    cases e.child? name with
    | none => rfl
    | some c => exact ih c

theorem exists_dir_of_at?_append {e : Entry} {front back : List String}
    {children : List (String × Entry)} (h : e.at? (front ++ back) = some (.dir children)) :
    ∃ cs, e.at? front = some (.dir cs) := by
  rw [at?_append] at h
  cases hfront : e.at? front with
  | none => simp [hfront] at h
  | some d =>
    rw [hfront, Option.bind_some] at h
    cases back with
    | nil =>
      obtain rfl : d = .dir children := by simpa using h
      exact ⟨children, rfl⟩
    | cons name back =>
      cases d with
      | dir cs => exact ⟨cs, rfl⟩
      | _ => simp [at?, child?, Entry.children] at h

end Entry

/-- Components of a path and the same without some of the empty ones and of the dots. -/
inductive Path.Thins : List String → List String → Prop
  | nil : Thins [] []
  | drop {part : String} {ps qs : List String} (hpart : part = "" ∨ part = ".")
      (hrest : Thins ps qs) : Thins (part :: ps) qs
  | keep (part : String) {ps qs : List String} (hrest : Thins ps qs) :
      Thins (part :: ps) (part :: qs)

namespace Path.Thins

theorem append (front : List String) {ps qs : List String} (h : Thins ps qs) :
    Thins (front ++ ps) (front ++ qs) := by
  induction front with
  | nil => exact h
  | cons part front ih => exact .keep part ih

theorem exists_names {parts : List String} (hdots : ".." ∉ parts) :
    ∃ names, Thins parts names ∧ ∀ here, descend here parts = here ++ names := by
  induction parts with
  | nil => exact ⟨[], .nil, by simp⟩
  | cons part parts ih =>
    rw [List.mem_cons, not_or] at hdots
    obtain ⟨names, hthins, hdescend⟩ := ih hdots.2
    by_cases hstay : part = "" ∨ part = "."
    · exact ⟨names, .drop hstay hthins, fun here => by
        rw [descend_cons, enter_stay hstay, hdescend]⟩
    · refine ⟨part :: names, .keep part hthins, fun here => ?_⟩
      rw [descend_cons, enter, if_neg hstay, if_neg (Ne.symm hdots.1), hdescend]
      simp

end Path.Thins

namespace Host

open FileSweep.Path

/-- A component that is looked up in the directory that the walk is at. -/
structure LooksUp (part : String) : Prop where
  moves : ¬(part = "" ∨ part = ".")
  down : part ≠ ".."
  short : part.utf8ByteSize ≤ nameLimit

theorem LooksUp.of_isName {part : String} (h : IsName part)
    (hshort : part.utf8ByteSize ≤ nameLimit) : LooksUp part :=
  ⟨not_or.mpr ⟨h.1, h.2.2.1⟩, h.2.2.2, hshort⟩

/-- The turn that a walk takes with one component, in a directory with the given children. -/
inductive Turn (children : List (String × Entry)) (part : String) : Prop
  | stay (hstay : part = "" ∨ part = ".")
  | up (hup : part = "..")
  | follow (hlooks : LooksUp part) (target : String)
      (hchild : children.lookup part = some (.link target))
  | enter (hlooks : LooksUp part) (e : Entry) (hchild : children.lookup part = some e)
      (hlink : e.isLink = false)

section Walk

variable {root : Entry} {onLink : List String → List String → Except OsError Place}
  {here names : List String} {part : String} {children : List (String × Entry)}

theorem walkWith_stay (hstay : part = "" ∨ part = ".")
    (hhere : root.at? here = some (.dir children)) (rest : List String) :
    walkWith root true onLink here (part :: rest) = walkWith root true onLink here rest := by
  simp only [walkWith, hhere, if_pos hstay]

theorem walkWith_up (hhere : root.at? here = some (.dir children)) (rest : List String) :
    walkWith root true onLink here (".." :: rest) = walkWith root true onLink here.dropLast rest := by
  simp [walkWith, hhere]

theorem walkWith_follow (hlooks : LooksUp part) (hhere : root.at? here = some (.dir children))
    {target : String} (hchild : children.lookup part = some (.link target)) (rest : List String) :
    walkWith root true onLink here (part :: rest) =
      onLink (startOf target here) (parts target ++ rest) := by
  simp [walkWith, hhere, if_neg hlooks.moves, hlooks.down, Nat.not_lt.mpr hlooks.short, hchild]

theorem walkWith_enter (hlooks : LooksUp part) (hhere : root.at? here = some (.dir children))
    {e : Entry} (hchild : children.lookup part = some e) (hlink : e.isLink = false)
    (rest : List String) :
    walkWith root true onLink here (part :: rest) =
      walkWith root true onLink (here ++ [part]) rest := by
  cases e with
  | link target => cases hlink
  | _ => simp [walkWith, hhere, if_neg hlooks.moves, hlooks.down, Nat.not_lt.mpr hlooks.short, hchild]

theorem walkWith_cases {rest : List String} {place : Place}
    (h : walkWith root true onLink here (part :: rest) = .ok place) :
    ∃ children, root.at? here = some (.dir children) ∧
      (Turn children part ∨ place = .free here part ∧ children.lookup part = none) := by
  unfold walkWith at h
  split at h
  next children hhere =>
    refine ⟨children, hhere, ?_⟩
    split at h
    next hstay => exact Or.inl (.stay hstay)
    next hmoves =>
      split at h
      next hup => exact Or.inl (.up hup)
      next hdown =>
        split at h
        next => cases h
        next hshort =>
          have hlooks : LooksUp part := ⟨hmoves, hdown, Nat.le_of_not_lt hshort⟩
          split at h
          next hchild =>
            split at h
            next => exact Or.inr ⟨(Except.ok.inj h).symm, hchild⟩
            next => cases h
          next target hchild => exact Or.inl (.follow hlooks target hchild)
          next e hnot hchild =>
            refine Or.inl (.enter hlooks e hchild ?_)
            cases e with
            | link target => exact absurd rfl (hnot target)
            | _ => rfl
  next => cases h

theorem turn_of_walkWith {rest : List String}
    (h : walkWith root true onLink here (part :: rest) = .ok (.taken names)) :
    ∃ children, root.at? here = some (.dir children) ∧ Turn children part := by
  obtain ⟨children, hhere, hturn | ⟨hfree, -⟩⟩ := walkWith_cases h
  · exact ⟨children, hhere, hturn⟩
  · cases hfree

/-- Walking along fewer components leads to where walking along all of them does. -/
theorem walkWith_thins {onLink' : List String → List String → Except OsError Place}
    (honLink : ∀ here ps qs, Thins ps qs → onLink here ps = .ok (.taken names) →
      onLink' here qs = .ok (.taken names))
    {ps qs : List String} (hthins : Thins ps qs)
    (h : walkWith root true onLink here ps = .ok (.taken names)) :
    walkWith root true onLink' here qs = .ok (.taken names) := by
  induction hthins generalizing here with
  | nil => exact h
  | drop hpart hrest ih =>
    obtain ⟨children, hhere, -⟩ := turn_of_walkWith h
    rw [walkWith_stay hpart hhere] at h
    exact ih h
  | keep part hrest ih =>
    obtain ⟨children, hhere, hturn⟩ := turn_of_walkWith h
    cases hturn with
    | stay hstay =>
      rw [walkWith_stay hstay hhere] at h ⊢
      exact ih h
    | up hup =>
      subst hup
      rw [walkWith_up hhere] at h ⊢
      exact ih h
    | follow hlooks target hchild =>
      rw [walkWith_follow hlooks hhere hchild] at h ⊢
      exact honLink _ _ _ (hrest.append (parts target)) h
    | enter hlooks e hchild hlink =>
      rw [walkWith_enter hlooks hhere hchild hlink] at h ⊢
      exact ih h

theorem walk_thins {links : Nat} {ps qs : List String} (hthins : Thins ps qs)
    (h : walk root true links here ps = .ok (.taken names)) :
    walk root true links here qs = .ok (.taken names) := by
  induction links generalizing here ps qs with
  | zero => exact walkWith_thins (fun _ _ _ _ hbroken => hbroken) hthins h
  | succ links ih =>
    rw [walk] at h ⊢
    exact walkWith_thins (fun here ps qs => @ih here ps qs) hthins h

/-- A walk that follows no link comes to the names that its components lead to as text, and a longer
walk goes on from there. -/
theorem walk_zero {front : List String} (h : walk root true 0 here front = .ok (.taken names)) :
    names = descend here front ∧
      ((∀ n ∈ here, n.utf8ByteSize ≤ nameLimit) → ∀ n ∈ names, n.utf8ByteSize ≤ nameLimit) ∧
      ∀ onLink back, walkWith root true onLink here (front ++ back) =
        walkWith root true onLink names back := by
  unfold walk at h
  induction front generalizing here with
  | nil =>
    obtain rfl : here = names := by simpa [walkWith] using h
    exact ⟨rfl, id, fun onLink back => rfl⟩
  | cons part front ih =>
    obtain ⟨children, hhere, hturn⟩ := turn_of_walkWith h
    cases hturn with
    | stay hstay =>
      rw [walkWith_stay hstay hhere] at h
      obtain ⟨hnames, hshort, hback⟩ := ih h
      refine ⟨by rw [descend_cons, enter_stay hstay, hnames], hshort, fun onLink back => ?_⟩
      rw [List.cons_append, walkWith_stay hstay hhere, hback]
    | up hup =>
      subst hup
      rw [walkWith_up hhere] at h
      obtain ⟨hnames, hshort, hback⟩ := ih h
      refine ⟨hnames, fun hall => hshort fun n hn => hall n (List.dropLast_subset here hn),
        fun onLink back => ?_⟩
      rw [List.cons_append, walkWith_up hhere, hback]
    | follow hlooks target hchild =>
      rw [walkWith_follow hlooks hhere hchild] at h
      cases h
    | enter hlooks e hchild hlink =>
      rw [walkWith_enter hlooks hhere hchild hlink] at h
      obtain ⟨hnames, hshort, hback⟩ := ih h
      refine ⟨?_, fun hall => hshort ?_, fun onLink back => ?_⟩
      · rw [descend_cons, enter, if_neg hlooks.moves, if_neg hlooks.down, hnames]
      · simpa [or_imp, forall_and, hlooks.short] using hall
      · rw [List.cons_append, walkWith_enter hlooks hhere hchild hlink, hback]

theorem walk_append {front : List String} (h : walk root true 0 here front = .ok (.taken names))
    (links : Nat) (back : List String) :
    walk root true links here (front ++ back) = walk root true links names back := by
  cases links with
  | zero => exact (walk_zero h).2.2 _ back
  | succ links => exact (walk_zero h).2.2 _ back

/-- A walk that comes somewhere goes on from there, if the rest takes no link. -/
theorem walkWith_onward {there back : List String}
    (honLink : ∀ here ps, onLink here ps = .ok (.taken names) →
      onLink here (ps ++ back) = .ok (.taken there))
    (hback : walkWith root true onLink names back = .ok (.taken there)) {front : List String}
    (h : walkWith root true onLink here front = .ok (.taken names)) :
    walkWith root true onLink here (front ++ back) = .ok (.taken there) := by
  induction front generalizing here with
  | nil =>
    obtain rfl : here = names := by simpa [walkWith] using h
    exact hback
  | cons part front ih =>
    obtain ⟨children, hhere, hturn⟩ := turn_of_walkWith h
    rw [List.cons_append]
    cases hturn with
    | stay hstay =>
      rw [walkWith_stay hstay hhere] at h ⊢
      exact ih h
    | up hup =>
      subst hup
      rw [walkWith_up hhere] at h ⊢
      exact ih h
    | follow hlooks target hchild =>
      rw [walkWith_follow hlooks hhere hchild] at h ⊢
      rw [← List.append_assoc]
      exact honLink _ _ h
    | enter hlooks e hchild hlink =>
      rw [walkWith_enter hlooks hhere hchild hlink] at h ⊢
      exact ih h

theorem walk_onward {there front back : List String} {links : Nat}
    (h : walk root true links here front = .ok (.taken names))
    (hback : walk root true 0 names back = .ok (.taken there)) :
    walk root true links here (front ++ back) = .ok (.taken there) := by
  have hdown : ∀ onLink, walkWith root true onLink names back = .ok (.taken there) := by
    intro onLink
    have hback' := (walk_zero hback).2.2 onLink []
    rw [List.append_nil] at hback'
    rw [hback', walkWith]
  induction links generalizing here front with
  | zero => exact walkWith_onward (fun _ _ hbroken => by cases hbroken) (hdown _) h
  | succ links ih => exact walkWith_onward (fun _ _ hfollowed => ih hfollowed) (hdown _) h

theorem exists_dir_of_names {name : String} {below : List String}
    (hdir : root.at? (here ++ name :: below) = some (.dir children)) :
    ∃ siblings cs, root.at? here = some (.dir siblings) ∧ siblings.lookup name = some (.dir cs) := by
  obtain ⟨siblings, hhere⟩ := Entry.exists_dir_of_at?_append hdir
  rw [List.append_cons] at hdir
  obtain ⟨cs, hnext⟩ := Entry.exists_dir_of_at?_append hdir
  refine ⟨siblings, cs, hhere, ?_⟩
  rw [Entry.at?_append, hhere, Option.bind_some, Entry.at?] at hnext
  cases hchild : Entry.child? (.dir siblings) name with
  | none => simp [hchild] at hnext
  | some d =>
    rw [hchild] at hnext
    exact hchild.trans (by simpa using hnext)

theorem walk_zero_of_names {below : List String} (hnames : ∀ n ∈ below, IsName n)
    (hshort : ∀ n ∈ below, n.utf8ByteSize ≤ nameLimit)
    (hdir : root.at? (here ++ below) = some (.dir children)) :
    walk root true 0 here below = .ok (.taken (here ++ below)) := by
  unfold walk
  induction below generalizing here with
  | nil => simp [walkWith]
  | cons name below ih =>
    obtain ⟨siblings, cs, hhere, hchild⟩ := exists_dir_of_names hdir
    have hlooks : LooksUp name := .of_isName (hnames name (by simp)) (hshort name (by simp))
    have hbelow := ih (fun n hn => hnames n (List.mem_cons_of_mem name hn))
      (fun n hn => hshort n (List.mem_cons_of_mem name hn)) (List.append_cons .. ▸ hdir)
    rw [walkWith_enter hlooks hhere hchild rfl, hbelow, ← List.append_cons]

theorem short_of_walkWith {below : List String} (hnames : ∀ n ∈ below, IsName n)
    (hdir : root.at? (here ++ below) = some (.dir children))
    (h : walkWith root true onLink here below = .ok (.taken names)) :
    ∀ n ∈ below, n.utf8ByteSize ≤ nameLimit := by
  induction below generalizing here with
  | nil => simp
  | cons name below ih =>
    obtain ⟨siblings, cs, hhere, hchild⟩ := exists_dir_of_names hdir
    have hname := hnames name (by simp)
    have hlooks : LooksUp name := by
      obtain ⟨_, _, hturn⟩ := turn_of_walkWith h
      cases hturn with
      | stay hstay => exact absurd hstay (not_or.mpr ⟨hname.1, hname.2.2.1⟩)
      | up hup => exact absurd hup hname.2.2.2
      | follow hlooks => exact hlooks
      | enter hlooks => exact hlooks
    rw [walkWith_enter hlooks hhere hchild rfl] at h
    rw [List.append_cons] at hdir
    have hbelow := ih (fun n hn => hnames n (List.mem_cons_of_mem name hn)) hdir h
    simpa [hlooks.short] using hbelow

theorem walk_zero_of_blank {blank : List String} (hblank : ∀ part ∈ blank, part = "")
    (hhere : root.at? here = some (.dir children)) :
    walk root true 0 here blank = .ok (.taken here) := by
  unfold walk
  induction blank with
  | nil => rfl
  | cons part blank ih =>
    rw [walkWith_stay (Or.inl (hblank part (by simp))) hhere]
    exact ih fun n hn => hblank n (List.mem_cons_of_mem part hn)

theorem walk_place (double : Bool) {below : List String} (hnames : ∀ n ∈ below, IsName n)
    (hroot : root.at? [] = some (.dir children)) (links : Nat) :
    walk root true links [] (parts (place double below)) = walk root true links [] below := by
  obtain ⟨blank, hblank, hparts⟩ := parts_place double hnames
  rw [hparts, walk_append (walk_zero_of_blank hblank hroot)]

end Walk

/-- A name that can be passed to the system. -/
structure Passable (path : String) : Prop where
  noNul : holdsNul path = false
  short : path.utf8ByteSize < pathLimit

/-- The current directory is where its name says. -/
structure Seated (h : Host) : Prop where
  absolute : isAbsolute h.cwd = true
  normal : normalize h.cwd = h.cwd
  there : h.isDir h.cwd = true

/-- No two dots stand behind a link: the path follows links only after the last of them. -/
def Straight (h : Host) (path : String) : Prop :=
  ∃ front back here, parts path = front ++ back ∧ ".." ∉ back ∧
    walk h.root true 0 (startOf path (components h.cwd)) front = .ok (.taken here)

variable {h : Host} {path : String}

theorem locate_eq_taken {names : List String} :
    h.locate path = .ok (.taken names) ↔ path ≠ "" ∧ path.utf8ByteSize < pathLimit ∧
      walk h.root true linkLimit (startOf path (components h.cwd)) (parts path) =
        .ok (.taken names) := by
  unfold locate
  split
  next hempty => simpa using fun hne => absurd (String.isEmpty_iff.mp hempty) hne
  next hempty =>
    have hne : path ≠ "" := fun h => hempty (String.isEmpty_iff.mpr h)
    split
    next hlong => simp [hne, Nat.not_lt.mpr hlong]
    next hshort => simp [hne, Nat.lt_of_not_le hshort, startOf]

theorem entry?_eq_some {e : Entry} :
    h.entry? path = some e ↔ (Passable path ∧ path ≠ "") ∧
      ∃ names, walk h.root true linkLimit (startOf path (components h.cwd)) (parts path) =
        .ok (.taken names) ∧ h.root.at? names = some e := by
  constructor
  · intro hentry
    unfold entry? at hentry
    split at hentry
    next => cases hentry
    next hnul =>
      split at hentry
      next names htaken =>
        obtain ⟨hne, hshort, hwalk⟩ := locate_eq_taken.mp htaken
        exact ⟨⟨⟨by simpa using hnul, hshort⟩, hne⟩, names, hwalk, hentry⟩
      next => cases hentry
  · rintro ⟨⟨hpassable, hne⟩, names, hwalk, hfound⟩
    unfold entry?
    rw [hpassable.noNul, if_neg Bool.false_ne_true,
      locate_eq_taken.mpr ⟨hne, hpassable.short, hwalk⟩]
    exact hfound

theorem isDir_iff : h.isDir path = true ↔ ∃ children, h.entry? path = some (.dir children) := by
  rw [isDir]
  cases h.entry? path with
  | none => simp
  | some e => cases e <;> simp [Entry.isDir]

theorem Seated.exists_place (hseated : h.Seated) :
    (∀ n ∈ components h.cwd, IsName n) ∧ ∃ double, h.cwd = place double (components h.cwd) := by
  obtain ⟨double, names, hnames, hplace⟩ := exists_place_of_isAbsolute hseated.absolute
  rw [hseated.normal] at hplace
  rw [hplace, components_place double hnames]
  exact ⟨hnames, double, rfl⟩

theorem Seated.proper_startOf (hseated : h.Seated) {children : List (String × Entry)}
    (hhere : h.root.at? (startOf path (components h.cwd)) = some (.dir children)) :
    (∀ n ∈ startOf path (components h.cwd), IsName n) ∧
      ∀ n ∈ startOf path (components h.cwd), n.utf8ByteSize ≤ nameLimit := by
  unfold startOf at hhere ⊢
  split
  next => simp
  next hrelative =>
    rw [if_neg hrelative] at hhere
    obtain ⟨hnames, double, hcwd⟩ := hseated.exists_place
    obtain ⟨_, hentry⟩ := isDir_iff.mp hseated.there
    obtain ⟨-, names, hwalk, -⟩ := entry?_eq_some.mp hentry
    obtain ⟨_, hroot⟩ := @Entry.exists_dir_of_at?_append h.root [] _ children hhere
    rw [startOf, if_pos hseated.absolute, hcwd, walk_place double hnames hroot] at hwalk
    exact ⟨hnames, short_of_walkWith hnames hhere hwalk⟩

theorem exists_dir_of_walk {here names : List String}
    (hwalk : walk h.root true linkLimit here (parts path) = .ok (.taken names)) :
    ∃ children, h.root.at? here = some (.dir children) := by
  obtain ⟨part, rest, hparts⟩ := List.exists_cons_of_ne_nil (parts_ne_nil path)
  rw [hparts] at hwalk
  obtain ⟨children, hhere, -⟩ := turn_of_walkWith hwalk
  exact ⟨children, hhere⟩

/-- A directory and its absolute form are the same directory, if the path is straight. -/
theorem entry?_absolute (hseated : h.Seated) (hstraight : h.Straight path)
    (hpassable : Passable (h.absolute path)) (hdir : h.isDir path = true) :
    h.entry? (h.absolute path) = h.entry? path := by
  obtain ⟨children, hentry⟩ := isDir_iff.mp hdir
  obtain ⟨-, names, hwalk, hfound⟩ := entry?_eq_some.mp hentry
  obtain ⟨front, back, there, hparts, hdots, hfront⟩ := hstraight
  obtain ⟨below, hthins, hbelow⟩ := Thins.exists_names hdots
  obtain ⟨hthere, hshort, -⟩ := walk_zero hfront
  obtain ⟨siblings, hhere⟩ := exists_dir_of_walk hwalk
  obtain ⟨top, hroot⟩ := @Entry.exists_dir_of_at?_append h.root [] _ siblings hhere
  obtain ⟨hproper, hfits⟩ := hseated.proper_startOf hhere
  -- The absolute form is the place with the names behind the last two dots and those after them.
  obtain ⟨double, habsolute⟩ := absolute_eq_place hseated.absolute hseated.normal path
  rw [hparts, descend_append, ← hthere, hbelow] at habsolute
  have hnames : ∀ n ∈ there ++ below, IsName n := by
    rw [← hbelow, hthere, ← descend_append, ← hparts]
    exact isName_descend hproper fun n => not_mem_of_mem_parts
  -- A walk from the root comes to the same directory there, and goes on along fewer components.
  rw [hparts, walk_append hfront] at hwalk
  obtain ⟨inside, hinside⟩ : ∃ inside, h.root.at? there = some (.dir inside) := by
    cases back with
    | nil =>
      obtain rfl : there = names := by simpa [walk, walkWith, linkLimit] using hwalk
      exact ⟨children, hfound⟩
    | cons part back =>
      obtain ⟨inside, hinside, -⟩ := turn_of_walkWith hwalk
      exact ⟨inside, hinside⟩
  have hdown : walk h.root true 0 [] there = .ok (.taken there) :=
    walk_zero_of_names (fun n hn => hnames n (List.mem_append_left below hn)) (hshort hfits) hinside
  rw [hentry, entry?_eq_some, absolute, habsolute]
  refine ⟨⟨habsolute ▸ hpassable, place_ne_empty double _⟩, names, ?_, hfound⟩
  rw [startOf, if_pos (isAbsolute_place double _), walk_place double hnames hroot, walk_append hdown]
  exact walk_thins hthins hwalk

end Host
end FileSweep
