import FileSweep.Json.Parser

/-! How many digits the integers have that are read, from arguments and from JSON texts. None has more
than the limit, so each can be written and read again. -/
namespace FileSweep

theorem exists_of_map_eq_ok {ε α β : Type} {f : α → β} {x : Except ε α} {y : β}
    (h : x.map f = .ok y) : ∃ a, x = .ok a ∧ f a = y := by
  cases x with
  | error e => cases h
  | ok a => exact ⟨a, rfl, Except.ok.inj h⟩

theorem eq_error_of_map_eq_error {ε α β : Type} {f : α → β} {x : Except ε α} {e : ε}
    (h : x.map f = .error e) : x = .error e := by
  cases x with
  | error e' => exact congrArg Except.error (Except.error.inj h)
  | ok a => cases h

namespace Text

def IsShort (n : Int) : Prop := (Nat.toDigits 10 n.natAbs).length ≤ digitLimit

theorem isShort_zero : IsShort 0 := (by decide : (Nat.toDigits 10 0).length ≤ digitLimit)

theorem isShort_neg {n : Int} : IsShort (-n) ↔ IsShort n := by
  rw [IsShort, IsShort, Int.natAbs_neg]

theorem length_toDigits_le {value count limit : Nat} (hvalue : value < Nat.pow 10 count)
    (hcount : count ≤ limit) (hlimit : 0 < limit) : (Nat.toDigits 10 value).length ≤ limit :=
  (Nat.length_toDigits_le_iff (by decide) hlimit).mpr
    (Nat.lt_of_lt_of_le hvalue (Nat.pow_le_pow_right (by decide) hcount))

theorem digitValue?_le {c : Char} {d : Nat} (h : digitValue? c = some d) : d ≤ 9 := by
  obtain ⟨z, hz, rfl⟩ := Option.map_eq_some_iff.mp h
  have hrange := List.find?_some hz
  simp only [Bool.and_eq_true, decide_eq_true_eq] at hrange
  omega

theorem lt_pow_succ {value count d : Nat} (hvalue : value < Nat.pow 10 count) (hd : d ≤ 9) :
    value * 10 + d < Nat.pow 10 (count + 1) := by
  have hsucc : Nat.pow 10 (count + 1) = Nat.pow 10 count * 10 := rfl
  omega

theorem lt_of_readDigits {cs : List Char} {needed : Bool} {count value : Nat} {r : Nat × Nat}
    (h : readDigits cs needed (count, value) = some r) (hvalue : value < Nat.pow 10 count) :
    r.2 < Nat.pow 10 r.1 := by
  induction cs generalizing needed count value with
  | nil =>
    rw [readDigits] at h
    split at h
    next => cases h
    next => exact Option.some.inj h ▸ hvalue
  | cons c cs ih =>
    rw [readDigits] at h
    split at h
    next =>
      split at h
      next => cases h
      next => exact ih h hvalue
    next =>
      split at h
      next d hd => exact ih h (lt_pow_succ hvalue (digitValue?_le hd))
      next => cases h

theorem isShort_of_readNat? {cs : List Char} {n : Nat} (h : readNat? cs = some n) : IsShort n := by
  unfold readNat? at h
  split at h
  next count value hread =>
    split at h
    next hcount =>
      obtain rfl := Option.some.inj h
      exact length_toDigits_le (lt_of_readDigits hread (by decide)) hcount (by decide)
    next => cases h
  next => cases h

theorem isShort_of_readInt? {s : String} {n : Int} (h : readInt? s = some n) : IsShort n := by
  unfold readInt? at h
  split at h <;> obtain ⟨m, hm, rfl⟩ := Option.map_eq_some_iff.mp h
  · obtain ⟨k, hk, hkm⟩ := Option.bind_eq_some_iff.mp hm
    obtain rfl := Option.some.inj hkm
    exact isShort_neg.mpr (isShort_of_readNat? hk)
  · exact isShort_of_readNat? hm
  · exact isShort_of_readNat? hm

end Text

namespace Json

inductive Value.IsShort : Value → Prop
  | null : IsShort .null
  | bool (b : Bool) : IsShort (.bool b)
  | int {n : Int} (hn : Text.IsShort n) : IsShort (.int n)
  | real (r : Real) : IsShort (.real r)
  | str (s : String) : IsShort (.str s)
  | arr {items : List Value} (hitems : ∀ v ∈ items, IsShort v) : IsShort (.arr items)
  | obj {members : List (String × Value)} (hmembers : ∀ m ∈ members, IsShort m.2) :
      IsShort (.obj members)

theorem isShort_int {n : Int} (h : (Value.int n).IsShort) : Text.IsShort n := by
  cases h
  assumption

theorem isShort_of_mem {members : List (String × Value)} (h : (Value.obj members).IsShort) :
    ∀ m ∈ members, m.2.IsShort := by
  cases h
  assumption

theorem digitsValue_lt {cs : List Char} (h : ∀ c ∈ cs, isDigit c = true) :
    digitsValue cs < Nat.pow 10 cs.length := by
  have hrun : ∀ value count, value < Nat.pow 10 count →
      cs.foldl (fun n c => n * 10 + (c.toNat - 48)) value < Nat.pow 10 (count + cs.length) := by
    induction cs with
    | nil => exact fun value count hvalue => hvalue
    | cons c cs ih =>
      intro value count hvalue
      rw [List.forall_mem_cons] at h
      have hc : c.toNat - 48 ≤ 9 := by
        have hrange := h.1
        simp only [isDigit, Bool.and_eq_true, decide_eq_true_eq] at hrange
        have htop : c.toNat ≤ '9'.toNat := hrange.2
        have hnine : '9'.toNat = 57 := rfl
        omega
      have hnext := ih h.2 _ (count + 1) (Text.lt_pow_succ hvalue hc)
      rwa [List.foldl_cons, List.length_cons, Nat.add_comm cs.length, ← Nat.add_assoc]
  have hall := hrun 0 0 (by decide)
  rwa [Nat.zero_add] at hall

theorem isDigit_of_integerDigits? {cs whole rest : List Char}
    (h : integerDigits? cs = some (whole, rest)) : ∀ c ∈ whole, isDigit c = true := by
  unfold integerDigits? at h
  split at h
  next => cases h
  next c cs =>
    split at h
    next hzero =>
      obtain ⟨rfl, -⟩ := Prod.mk.inj (Option.some.inj h)
      rw [List.forall_mem_singleton, hzero]
      rfl
    next =>
      split at h
      next hdigit =>
        obtain ⟨rfl, -⟩ := Prod.mk.inj (Option.some.inj h)
        exact List.forall_mem_cons.mpr ⟨hdigit, List.all_eq_true.mp List.all_takeWhile⟩
      next => cases h

theorem isShort_of_readNumber {left : Nat} {negative : Bool} {cs rest : List Char} {v : Value}
    (h : readNumber left negative cs = .ok (v, rest)) : v.IsShort := by
  unfold readNumber at h
  split at h
  next => cases h
  next whole behind hwhole =>
    dsimp only at h
    split at h
    next =>
      split at h
      next hlength =>
        have hshort : Text.IsShort (digitsValue whole) :=
          Text.length_toDigits_le (digitsValue_lt (isDigit_of_integerDigits? hwhole)) hlength
            (by decide)
        obtain ⟨rfl, -⟩ := Prod.mk.inj (Except.ok.inj h)
        refine .int ?_
        split
        next => exact Text.isShort_neg.mpr hshort
        next => exact hshort
      next => cases h
    next =>
      obtain ⟨rfl, -⟩ := Prod.mk.inj (Except.ok.inj h)
      exact .real _

theorem isShort_of_readAtom {cs rest : List Char} {v : Value} (h : readAtom cs = .ok (v, rest)) :
    v.IsShort := by
  unfold readAtom at h
  split at h
  next found hfound =>
    obtain rfl := Except.ok.inj h
    obtain ⟨⟨word, value⟩, hmem, hword⟩ := List.exists_of_findSome?_eq_some hfound
    obtain ⟨_, -, hvalue⟩ := Option.map_eq_some_iff.mp hword
    obtain ⟨rfl, -⟩ := Prod.mk.inj hvalue
    have hconstants : ∀ p ∈ constants, p.2.IsShort := by
      simp only [constants, List.forall_mem_cons, List.not_mem_nil, false_implies, implies_true,
        and_true]
      exact ⟨.null, .bool true, .bool false, .real _, .real _, .real _⟩
    exact hconstants _ hmem
  next =>
    split at h
    · exact isShort_of_readNumber h
    · exact isShort_of_readNumber h

theorem mem_insertMember {members : List (String × Value)} {name : String} {value : Value}
    {m : String × Value} (h : m ∈ insertMember members name value) :
    m ∈ members ∨ m = (name, value) := by
  induction members with
  | nil => exact Or.inr (List.mem_singleton.mp h)
  | cons first members ih =>
    rw [insertMember] at h
    split at h
    next =>
      rcases List.mem_cons.mp h with hnew | hold
      · exact Or.inr hnew
      · exact Or.inl (List.mem_cons_of_mem _ hold)
    next =>
      rcases List.mem_cons.mp h with hfirst | hlater
      · exact Or.inl (hfirst ▸ List.mem_cons_self)
      · exact (ih hlater).imp_left (List.mem_cons_of_mem _)

theorem forall_insertMember {P : Value → Prop} {members : List (String × Value)}
    (h : ∀ m ∈ members, P m.2) (name : String) {value : Value} (hvalue : P value) :
    ∀ m ∈ insertMember members name value, P m.2 := by
  intro m hm
  rcases mem_insertMember hm with hold | rfl
  · exact h m hold
  · exact hvalue

theorem forall_insertAll {P : Value → Prop} {members updates : List (String × Value)}
    (h : ∀ m ∈ members, P m.2) (hupdates : ∀ m ∈ updates, P m.2) :
    ∀ m ∈ insertAll members updates, P m.2 := by
  induction updates generalizing members with
  | nil => exact h
  | cons u updates ih =>
    rw [List.forall_mem_cons] at hupdates
    exact ih (forall_insertMember h u.1 hupdates.1) hupdates.2

/-- What the readers leave at a given fuel has no integer with too many digits. -/
structure ReadsShort (fuel : Nat) : Prop where
  value : ∀ cs v rest, readValue fuel cs = .ok (v, rest) → v.IsShort
  items : ∀ cs items rest, readItems fuel cs = .ok (items, rest) → ∀ v ∈ items, v.IsShort
  members : ∀ before cs members rest, readMembers fuel before cs = .ok (members, rest) →
    (∀ m ∈ before, m.2.IsShort) → ∀ m ∈ members, m.2.IsShort

section Fuel

variable {fuel : Nat} (hfuel : ReadsShort fuel)

include hfuel

theorem isShort_of_readValue {cs rest : List Char} {v : Value}
    (h : readValue (fuel + 1) cs = .ok (v, rest)) : v.IsShort := by
  unfold readValue at h
  split at h
  next => cases h
  next =>
    obtain ⟨_, -, hv⟩ := exists_of_map_eq_ok h
    obtain ⟨rfl, -⟩ := Prod.mk.inj hv
    exact .str _
  next =>
    split at h
    next =>
      obtain ⟨rfl, -⟩ := Prod.mk.inj (Except.ok.inj h)
      exact .arr (by simp)
    next =>
      obtain ⟨⟨items, behind⟩, hitems, hv⟩ := exists_of_map_eq_ok h
      obtain ⟨rfl, -⟩ := Prod.mk.inj hv
      exact .arr (hfuel.items _ _ _ hitems)
  next =>
    split at h
    next =>
      obtain ⟨rfl, -⟩ := Prod.mk.inj (Except.ok.inj h)
      exact .obj (by simp)
    next =>
      obtain ⟨⟨members, behind⟩, hmembers, hv⟩ := exists_of_map_eq_ok h
      obtain ⟨rfl, -⟩ := Prod.mk.inj hv
      exact .obj (hfuel.members _ _ _ _ hmembers (by simp))
  next => exact isShort_of_readAtom h

theorem isShort_of_readItems {cs rest : List Char} {items : List Value}
    (h : readItems (fuel + 1) cs = .ok (items, rest)) : ∀ v ∈ items, v.IsShort := by
  unfold readItems at h
  split at h
  next => cases h
  next item behind hitem =>
    have hshort := hfuel.value _ _ _ hitem
    split at h
    next =>
      obtain ⟨rfl, -⟩ := Prod.mk.inj (Except.ok.inj h)
      exact List.forall_mem_singleton.mpr hshort
    next =>
      obtain ⟨⟨more, _⟩, hmore, hv⟩ := exists_of_map_eq_ok h
      obtain ⟨rfl, -⟩ := Prod.mk.inj hv
      exact List.forall_mem_cons.mpr ⟨hshort, hfuel.items _ _ _ hmore⟩
    next => cases h

theorem isShort_of_readMembers {before members : List (String × Value)} {cs rest : List Char}
    (h : readMembers (fuel + 1) before cs = .ok (members, rest))
    (hbefore : ∀ m ∈ before, m.2.IsShort) : ∀ m ∈ members, m.2.IsShort := by
  unfold readMembers at h
  split at h
  next =>
    split at h
    next => cases h
    next name behind _ =>
      split at h
      next =>
        split at h
        next => cases h
        next value tail hvalue =>
          have hmembers := forall_insertMember hbefore name (hfuel.value _ _ _ hvalue)
          dsimp only at h
          split at h
          next =>
            obtain ⟨rfl, -⟩ := Prod.mk.inj (Except.ok.inj h)
            exact hmembers
          next => exact hfuel.members _ _ _ _ h hmembers
          next => cases h
      next => cases h
  next => cases h

end Fuel

theorem readsShort (fuel : Nat) : ReadsShort fuel := by
  induction fuel with
  | zero =>
    exact ⟨fun _ _ _ h => (by cases h), fun _ _ _ h => (by cases h), fun _ _ _ _ h => (by cases h)⟩
  | succ fuel ih =>
    exact ⟨fun _ _ _ h => isShort_of_readValue ih h, fun _ _ _ h => isShort_of_readItems ih h,
      fun _ _ _ _ h => isShort_of_readMembers ih h⟩

/-- No integer in a value that is read has more digits than are read. -/
theorem isShort_of_parse {s : String} {v : Value} (h : parse s = .ok v) : v.IsShort := by
  unfold parse at h
  split at h
  next value hchars =>
    obtain rfl := Except.ok.inj h
    unfold parseChars at hchars
    split at hchars
    next => cases hchars
    next =>
      split at hchars
      next => cases hchars
      next v rest hread =>
        split at hchars
        next =>
          obtain rfl := Except.ok.inj hchars
          exact (readsShort _).value _ _ _ hread
        next => cases hchars
  next => cases h

end Json
end FileSweep
