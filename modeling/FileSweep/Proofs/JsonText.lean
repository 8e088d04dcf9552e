import FileSweep.Proofs.JsonAtoms

/-! JSON texts. A value is read back from its text, whatever the layout, if it holds no number but
integers with no more digits than are read, and no object with a name twice. -/
namespace FileSweep
namespace Json

/-- Values that their texts tell. -/
inductive Value.Legible : Value → Prop
  | null : Legible .null
  | bool (b : Bool) : Legible (.bool b)
  | int {n : Int} (hshort : Text.IsShort n) : Legible (.int n)
  | str (s : String) : Legible (.str s)
  | arr {items : List Value} (hitems : ∀ v ∈ items, Legible v) : Legible (.arr items)
  | obj {members : List (String × Value)} (honce : (members.map Prod.fst).Nodup)
      (hmembers : ∀ m ∈ members, Legible m.2) : Legible (.obj members)

/-- A layout that sets values apart by blanks alone. -/
structure Layout.IsBlank (layout : Layout) : Prop where
  lineBreak : ∀ depth, ∀ c ∈ layout.lineBreak depth, isSpace c = true
  afterColon : ∀ c ∈ layout.afterColon, isSpace c = true

theorem isBlank_indented : Layout.indented.IsBlank where
  lineBreak := by
    intro depth c hc
    rcases List.mem_cons.mp hc with rfl | hc
    · decide
    · rw [List.eq_of_mem_replicate hc]
      decide
  afterColon := by simp [Layout.indented, isSpace]

theorem skipSpace_append {blanks : List Char} (h : ∀ c ∈ blanks, isSpace c = true)
    (rest : List Char) : skipSpace (blanks ++ rest) = skipSpace rest :=
  List.dropWhile_append_of_pos h

theorem skipSpace_cons {c : Char} (h : isSpace c = false) (rest : List Char) :
    skipSpace (c :: rest) = c :: rest :=
  List.dropWhile_cons_of_neg (by simp [h])

theorem stops_append {blanks : List Char} (h : ∀ c ∈ blanks, isSpace c = true) {rest : List Char}
    (hrest : Stops rest) : Stops (blanks ++ rest) := by
  cases blanks with
  | nil => exact hrest
  | cons c blanks =>
    intro d hd
    obtain rfl : c = d := by simpa using hd
    exact Or.inr (h c List.mem_cons_self)

theorem stops_mark {c : Char} (h : c ∈ [',', ']', '\x7d']) (rest : List Char) : Stops (c :: rest) := by
  intro d hd
  obtain rfl : c = d := by simpa using hd
  exact Or.inl h

def opens (c : Char) : Bool := ['"', '[', '\x7b', '-', 'n', 't', 'f'].contains c || isDigit c

theorem apart_of_opens {c : Char} (h : opens c = true) :
    isSpace c = false ∧ c ≠ ']' ∧ c ≠ '\uFEFF' := by
  have hne : ∀ w ∈ [' ', '\t', '\n', '\r', ']', '\uFEFF'], w ≠ c := ne_of_all (by decide) h
  simp only [List.forall_mem_cons] at hne
  obtain ⟨hblank, htab, hfeed, hreturn, hbracket, hmark, -⟩ := hne
  exact ⟨by simp [isSpace, hblank.symm, htab.symm, hfeed.symm, hreturn.symm], hbracket.symm,
    hmark.symm⟩

theorem valueChars_opens (layout : Layout) (depth : Nat) {v : Value} (hv : v.Legible) :
    ∃ c cs, valueChars layout depth v = c :: cs ∧ opens c = true := by
  cases hv with
  | null => exact ⟨'n', _, by rw [valueChars]; rfl, rfl⟩
  | bool b =>
    cases b with
    | true => exact ⟨'t', _, by rw [valueChars]; rfl, rfl⟩
    | false => exact ⟨'f', _, by rw [valueChars]; rfl, rfl⟩
  | @int n hshort =>
    obtain ⟨c, cs, hform, hc⟩ := exists_toList_toString_int n
    refine ⟨c, cs, by rw [valueChars, hform], ?_⟩
    rcases hc with rfl | hdigit
    · rfl
    · simp [opens, hdigit]
  | str s => exact ⟨'"', _, by rw [valueChars, stringChars]; rfl, rfl⟩
  | @arr items =>
    cases items with
    | nil => exact ⟨'[', _, by rw [valueChars], rfl⟩
    | cons item items => exact ⟨'[', _, by rw [valueChars]; rfl, rfl⟩
  | @obj members =>
    cases members with
    | nil => exact ⟨'\x7b', _, by rw [valueChars], rfl⟩
    | cons m members => exact ⟨'\x7b', _, by rw [valueChars]; rfl, rfl⟩

theorem insertMember_of_not_mem {members : List (String × Value)} {name : String}
    (h : name ∉ members.map Prod.fst) (value : Value) :
    insertMember members name value = members ++ [(name, value)] := by
  induction members with
  | nil => rfl
  | cons m members ih =>
    rw [List.map_cons, List.mem_cons, not_or] at h
    rw [insertMember, if_neg (Ne.symm h.1), ih h.2, List.cons_append]

theorem not_mem_of_nodup {before members : List (String × Value)} {m : String × Value}
    (h : ((before ++ m :: members).map Prod.fst).Nodup) : m.1 ∉ before.map Prod.fst := by
  rw [List.map_append, List.nodup_append] at h
  exact fun hmem => h.2.2 m.1 hmem m.1 (by simp) rfl

theorem skipSpace_valueChars {blanks : List Char} (h : ∀ c ∈ blanks, isSpace c = true)
    (layout : Layout) (depth : Nat) {v : Value} (hv : v.Legible) (rest : List Char) :
    skipSpace (blanks ++ (valueChars layout depth v ++ rest)) =
      valueChars layout depth v ++ rest := by
  obtain ⟨c, cs, hform, hopens⟩ := valueChars_opens layout depth hv
  rw [skipSpace_append h, hform, List.cons_append, skipSpace_cons (apart_of_opens hopens).1]

/-- Whether a value is read back from its text, with whatever can follow it behind. -/
def ReadsBack (layout : Layout) (v : Value) : Prop :=
  ∀ depth fuel rest, (valueChars layout depth v).length ≤ fuel → Stops rest →
    readValue fuel (valueChars layout depth v ++ rest) = .ok (v, rest)

theorem ReadsBack.of_succ {layout : Layout} {v : Value} (hv : v.Legible)
    (h : ∀ depth fuel rest, (valueChars layout depth v).length ≤ fuel + 1 → Stops rest →
      readValue (fuel + 1) (valueChars layout depth v ++ rest) = .ok (v, rest)) :
    ReadsBack layout v := by
  intro depth fuel rest hfuel hstops
  obtain ⟨c, cs, hform, -⟩ := valueChars_opens layout depth hv
  cases fuel with
  | zero => simp [hform] at hfuel
  | succ fuel => exact h depth fuel rest hfuel hstops

theorem readValue_atom {c : Char} (h : c ∉ ['"', '[', '\x7b']) (fuel : Nat) (cs : List Char) :
    readValue (fuel + 1) (c :: cs) = readAtom (c :: cs) := by
  simp only [List.mem_cons, List.not_mem_nil, or_false, not_or] at h
  rw [readValue]
  · exact List.cons_ne_nil c cs
  · exact fun _ heq => h.1 (List.cons.inj heq).1
  · exact fun _ heq => h.2.1 (List.cons.inj heq).1
  · exact fun _ heq => h.2.2 (List.cons.inj heq).1

theorem readsBack_int (layout : Layout) {n : Int} (hshort : Text.IsShort n) :
    ReadsBack layout (.int n) := by
  refine .of_succ (.int hshort) fun depth fuel rest _ hstops => ?_
  obtain ⟨c, cs, hform, hc⟩ := exists_toList_toString_int n
  have hatom : c ∉ ['"', '[', '\x7b'] := by
    rcases hc with rfl | hdigit
    · decide
    · exact fun hmem => ne_of_all (by decide) hdigit c hmem rfl
  have hread := readAtom_int hshort hstops
  rw [hform, List.cons_append] at hread
  rw [valueChars, hform, List.cons_append, readValue_atom hatom, hread]

section Layouts

variable {layout : Layout} (hlayout : layout.IsBlank) {close : List Char}
  (hclose : ∀ c ∈ close, isSpace c = true)

include hlayout hclose

theorem readItems_itemsChars (depth : Nat) (rest : List Char) (item : Value) (items : List Value)
    (hlegible : ∀ v ∈ items, v.Legible) (hback : ∀ v ∈ item :: items, ReadsBack layout v)
    (fuel : Nat)
    (hfuel : (valueChars layout depth item).length + (itemsChars layout depth items).length < fuel) :
    readItems fuel (valueChars layout depth item ++
      (itemsChars layout depth items ++ (close ++ ']' :: rest))) = .ok (item :: items, rest) := by
  -- Each item is longer than the fuel that reading it takes away.
  induction items generalizing item fuel with
  | nil =>
    obtain ⟨fuel, rfl⟩ : ∃ f, fuel = f + 1 := ⟨fuel - 1, by omega⟩
    have hstops : Stops (close ++ ']' :: rest) := stops_append hclose (stops_mark (by decide) rest)
    rw [itemsChars, List.nil_append, readItems,
      hback item List.mem_cons_self depth fuel _ (by omega) hstops]
    simp only [skipSpace_append hclose]
    rfl
  | cons next items ih =>
    obtain ⟨fuel, rfl⟩ : ∃ f, fuel = f + 1 := ⟨fuel - 1, by omega⟩
    rw [List.forall_mem_cons] at hlegible hback
    simp only [itemsChars, List.length_append, List.length_cons] at hfuel
    have hread := ih next hlegible.2 hback.2 fuel (by omega)
    simp only [itemsChars, List.cons_append, List.append_assoc]
    rw [readItems, hback.1 depth fuel _ (by omega) (stops_mark (by decide) _)]
    simp only [skipSpace_cons (c := ',') rfl,
      skipSpace_valueChars (hlayout.lineBreak depth) layout depth hlegible.1, hread]
    rfl

omit hclose in
theorem readMembers_member (depth : Nat) (name : String) {value : Value} (hlegible : value.Legible)
    (hback : ReadsBack layout value) (before : List (String × Value)) {fuel : Nat}
    (hfuel : (valueChars layout depth value).length ≤ fuel) {tail : List Char}
    (hstops : Stops tail) :
    let cs := stringChars name ++ ':' :: (layout.afterColon ++ (valueChars layout depth value ++ tail))
    (∀ rest, skipSpace tail = '\x7d' :: rest →
        readMembers (fuel + 1) before cs = .ok (insertMember before name value, rest)) ∧
      ∀ rest, skipSpace tail = ',' :: rest →
        readMembers (fuel + 1) before cs =
          readMembers fuel (insertMember before name value) (skipSpace rest) := by
  have hread := hback depth fuel tail hfuel hstops
  intro cs
  constructor
  all_goals
    intro rest htail
    simp only [cs, stringChars, List.cons_append, List.append_assoc, List.nil_append]
    rw [readMembers, readString_flatMap]
    simp only [skipSpace_cons (c := ':') rfl,
      skipSpace_valueChars hlayout.afterColon layout depth hlegible, hread, htail]

theorem readMembers_membersChars (depth : Nat) (rest : List Char) (name : String) (value : Value)
    (members before : List (String × Value))
    (honce : ((before ++ (name, value) :: members).map Prod.fst).Nodup)
    (hvalue : value.Legible) (hlegible : ∀ m ∈ members, m.2.Legible)
    (hfirst : ReadsBack layout value) (hback : ∀ m ∈ members, ReadsBack layout m.2) (fuel : Nat)
    (hfuel : (valueChars layout depth value).length + (membersChars layout depth members).length <
      fuel) :
    readMembers fuel before (stringChars name ++ ':' :: (layout.afterColon ++
      (valueChars layout depth value ++ (membersChars layout depth members ++
        (close ++ '\x7d' :: rest))))) = .ok (before ++ (name, value) :: members, rest) := by
  induction members generalizing name value before fuel with
  | nil =>
    obtain ⟨fuel, rfl⟩ : ∃ f, fuel = f + 1 := ⟨fuel - 1, by omega⟩
    have hstops : Stops (close ++ '\x7d' :: rest) :=
      stops_append hclose (stops_mark (by decide) rest)
    have hend : skipSpace (close ++ '\x7d' :: rest) = '\x7d' :: rest := by
      rw [skipSpace_append hclose, skipSpace_cons rfl]
    rw [membersChars, List.nil_append,
      (readMembers_member hlayout depth name hvalue hfirst before (by omega) hstops).1 rest hend,
      insertMember_of_not_mem (not_mem_of_nodup honce)]
  | cons next members ih =>
    obtain ⟨fuel, rfl⟩ : ∃ f, fuel = f + 1 := ⟨fuel - 1, by omega⟩
    obtain ⟨name', value'⟩ := next
    have hmore : before ++ (name, value) :: (name', value') :: members =
        (before ++ [(name, value)]) ++ (name', value') :: members := by simp
    obtain ⟨hvalue', hlegible⟩ := List.forall_mem_cons.mp hlegible
    obtain ⟨hfirst', hback⟩ := List.forall_mem_cons.mp hback
    simp only [membersChars, List.length_append, List.length_cons] at hfuel
    have hread := ih name' value' (before ++ [(name, value)]) (hmore ▸ honce) hvalue' hlegible
      hfirst' hback fuel (by omega)
    simp only [membersChars, List.cons_append, List.append_assoc]
    rw [(readMembers_member hlayout depth name hvalue hfirst before (by omega)
      (stops_mark (by decide) _)).2 _ (skipSpace_cons rfl _),
      insertMember_of_not_mem (not_mem_of_nodup honce), skipSpace_append (hlayout.lineBreak depth),
      hmore]
    exact hread

omit hclose in
theorem readsBack_arr {items : List Value} (hitems : ∀ v ∈ items, v.Legible)
    (hback : ∀ v ∈ items, ReadsBack layout v) : ReadsBack layout (.arr items) := by
  refine .of_succ (.arr hitems) fun depth fuel rest hfuel _ => ?_
  cases items with
  | nil =>
    rw [valueChars]
    rfl
  | cons item items =>
    rw [List.forall_mem_cons] at hitems
    simp only [valueChars, List.length_cons, List.length_append] at hfuel
    have hread := readItems_itemsChars hlayout (hlayout.lineBreak depth) (depth + 1) rest item items
      hitems.2 hback fuel (by omega)
    simp only [valueChars, List.cons_append, List.append_assoc, List.nil_append]
    rw [readValue, skipSpace_valueChars (hlayout.lineBreak (depth + 1)) layout (depth + 1) hitems.1]
    -- The first item's text does not begin with the bracket of an empty array.
    obtain ⟨c, cs, hform, hopens⟩ := valueChars_opens layout (depth + 1) hitems.1
    rw [hform, List.cons_append] at hread ⊢
    split
    next heq => exact absurd (List.cons.inj heq).1 (apart_of_opens hopens).2.1
    next =>
      rw [hread]
      rfl

omit hclose in
theorem readsBack_obj {members : List (String × Value)} (honce : (members.map Prod.fst).Nodup)
    (hmembers : ∀ m ∈ members, m.2.Legible) (hback : ∀ m ∈ members, ReadsBack layout m.2) :
    ReadsBack layout (.obj members) := by
  refine .of_succ (.obj honce hmembers) fun depth fuel rest hfuel _ => ?_
  cases members with
  | nil =>
    rw [valueChars]
    rfl
  | cons m members =>
    obtain ⟨name, value⟩ := m
    obtain ⟨hvalue, hmembers⟩ := List.forall_mem_cons.mp hmembers
    obtain ⟨hfirst, hback⟩ := List.forall_mem_cons.mp hback
    simp only [valueChars, List.length_cons, List.length_append] at hfuel
    have hread := readMembers_membersChars hlayout (hlayout.lineBreak depth) (depth + 1) rest name
      value members [] honce hvalue hmembers hfirst hback fuel (by omega)
    simp only [valueChars, List.cons_append, List.append_assoc, List.nil_append]
    rw [readValue, skipSpace_append (hlayout.lineBreak (depth + 1))]
    simp only [stringChars, List.cons_append] at hread ⊢
    rw [skipSpace_cons rfl]
    exact congrArg (Except.map _) hread

omit hclose in
/-- A value is read back from its text. -/
theorem readsBack_of_legible {v : Value} (hv : v.Legible) : ReadsBack layout v := by
  induction hv with
  | null =>
    refine .of_succ .null fun depth fuel rest _ _ => ?_
    rw [valueChars]
    rfl
  | bool b =>
    refine .of_succ (.bool b) fun depth fuel rest _ _ => ?_
    cases b <;> rw [valueChars] <;> rfl
  | int hshort => exact readsBack_int layout hshort
  | str s =>
    refine .of_succ (.str s) fun depth fuel rest _ _ => ?_
    simp only [valueChars, stringChars, List.cons_append, List.append_assoc, List.nil_append]
    rw [readValue, readString_flatMap]
    rfl
  | arr hitems ih => exact readsBack_arr hlayout hitems ih
  | obj honce hmembers ih => exact readsBack_obj hlayout honce hmembers ih

omit hclose in
theorem parseChars_valueChars {v : Value} (hv : v.Legible) {blanks : List Char}
    (hblanks : ∀ c ∈ blanks, isSpace c = true) :
    parseChars (valueChars layout 0 v ++ blanks) = .ok v := by
  obtain ⟨c, cs, hform, hopens⟩ := valueChars_opens layout 0 hv
  obtain ⟨hspace, -, hmark⟩ := apart_of_opens hopens
  have hend : skipSpace blanks = [] := by
    rw [← List.append_nil blanks, skipSpace_append hblanks]
    rfl
  have hstops : Stops blanks := by
    rw [← List.append_nil blanks]
    exact stops_append hblanks (by simp [Stops])
  have hread := readsBack_of_legible hlayout hv 0
    (2 * (valueChars layout 0 v ++ blanks).length + 2) blanks
    (by rw [List.length_append]; omega) hstops
  rw [hform, List.cons_append] at hread ⊢
  unfold parseChars
  split
  next heq => exact absurd (List.cons.inj heq).1 hmark
  next =>
    rw [skipSpace_cons hspace, hread]
    simp only [hend]

end Layouts

/-! No text holds a carriage return: strings write it as an escape. -/

theorem return_not_mem_escapedChar (c : Char) : '\r' ∉ escapedChar c := by
  have hdigit : ∀ n, '\r' ≠ Text.hexDigit n := by
    have hall : ∀ d < 16, '\r' ≠ Nat.digitChar d := by decide
    exact fun n => hall (n % 16) (Nat.mod_lt n (by decide))
  unfold escapedChar
  split_ifs with hquote hslash hfeed hreturn htab hback hform hcontrol
  any_goals decide
  · simp [Text.hexChars_four, hdigit]
  · exact fun hmem => hreturn (List.mem_singleton.mp hmem).symm

theorem return_not_mem_stringChars (s : String) : '\r' ∉ stringChars s := by
  simp [stringChars, return_not_mem_escapedChar]

section Returns

variable {layout : Layout} (hbreak : ∀ depth, '\r' ∉ layout.lineBreak depth)
  (hcolon : '\r' ∉ layout.afterColon)

include hbreak

theorem return_not_mem_itemsChars {items : List Value}
    (h : ∀ v ∈ items, ∀ depth, '\r' ∉ valueChars layout depth v) (depth : Nat) :
    '\r' ∉ itemsChars layout depth items := by
  induction items with
  | nil => simp [itemsChars]
  | cons item items ih =>
    rw [List.forall_mem_cons] at h
    simp [itemsChars, hbreak, h.1 depth, ih h.2]

include hcolon

theorem return_not_mem_membersChars {members : List (String × Value)}
    (h : ∀ m ∈ members, ∀ depth, '\r' ∉ valueChars layout depth m.2) (depth : Nat) :
    '\r' ∉ membersChars layout depth members := by
  induction members with
  | nil => simp [membersChars]
  | cons m members ih =>
    rw [List.forall_mem_cons] at h
    simp [membersChars, hbreak, hcolon, return_not_mem_stringChars, h.1 depth, ih h.2]

theorem return_not_mem_valueChars {v : Value} (hv : v.Legible) (depth : Nat) :
    '\r' ∉ valueChars layout depth v := by
  induction hv generalizing depth with
  | null => simp [valueChars]
  | bool b => cases b <;> simp [valueChars]
  | @int n hshort =>
    have hdigits : '\r' ∉ Nat.toDigits 10 n.natAbs := fun hmem =>
      absurd (isDigit_of_mem_toDigits hmem) (by decide)
    rw [valueChars, toList_toString_int]
    split <;> simp [hdigits]
  | str s =>
    rw [valueChars]
    exact return_not_mem_stringChars s
  | @arr items hitems ih =>
    cases items with
    | nil => simp [valueChars]
    | cons item items =>
      rw [List.forall_mem_cons] at ih
      simp [valueChars, hbreak, ih.1 (depth + 1), return_not_mem_itemsChars hbreak ih.2]
  | @obj members honce hmembers ih =>
    cases members with
    | nil => simp [valueChars]
    | cons m members =>
      rw [List.forall_mem_cons] at ih
      simp [valueChars, hbreak, hcolon, return_not_mem_stringChars, ih.1 (depth + 1),
        return_not_mem_membersChars hbreak hcolon ih.2]

end Returns

theorem toList_printIndented (v : Value) :
    (printIndented v ++ "\n").toList = valueChars .indented 0 v ++ ['\n'] := by
  rw [String.toList_append, printIndented, String.toList_ofList]
  rfl

theorem parse_printIndented {v : Value} (hv : v.Legible) :
    parse (printIndented v ++ "\n") = .ok v := by
  rw [parse, toList_printIndented, parseChars_valueChars isBlank_indented hv (by simp [isSpace])]

theorem return_not_mem_printIndented {v : Value} (hv : v.Legible) :
    '\r' ∉ (printIndented v ++ "\n").toList := by
  have hbreak : ∀ depth, '\r' ∉ Layout.indented.lineBreak depth := by
    simp [Layout.indented, List.mem_replicate]
  have hcolon : '\r' ∉ Layout.indented.afterColon := by decide
  rw [toList_printIndented]
  simp [return_not_mem_valueChars hbreak hcolon hv]

end Json
end FileSweep
