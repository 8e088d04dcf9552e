import FileSweep.Host.Basic
import FileSweep.Proofs.Trimming

/-! Paths that stand for themselves. What a setting says of a directory is trimmed, and shortcuts in
it are expanded. A path in which there is nothing to trim, no home that is known and no variable that
is set comes out of this as it went in. -/
namespace FileSweep
namespace Path

/-- The user whose home a path begins with; the empty name is the current user. -/
def homeUser? (p : String) : Option String :=
  match p.toList with
  | '~' :: cs => some (String.ofList (cs.takeWhile (· != '/')))
  | _ => none

/-- The variables that a text refers to, of which the first `skip` characters are already dealt
with. -/
def referencesFrom : Nat → List Char → List String
  | _, [] => []
  | skip + 1, _ :: cs => referencesFrom skip cs
  | 0, c :: cs =>
    if c = '$' then
      match reference? cs with
      | none => referencesFrom 0 cs
      | some (name, taken) => String.ofList name :: referencesFrom taken cs
    else referencesFrom 0 cs

def references (p : String) : List String := referencesFrom 0 p.toList

/-- A path in which nothing is trimmed and nothing expanded. -/
structure Literal (e : Environment) (p : String) : Prop where
  trimmed : Text.IsTrimmed p
  home : ∀ user ∈ homeUser? p, e.homeOf? user = none
  unset : ∀ name ∈ references p, e.get? name = none

instance literalDecidable (e : Environment) (p : String) : Decidable (Literal e p) :=
  decidable_of_iff (Text.IsTrimmed p ∧ (∀ user ∈ homeUser? p, e.homeOf? user = none) ∧
    ∀ name ∈ references p, e.get? name = none) ⟨fun h => ⟨h.1, h.2.1, h.2.2⟩,
      fun h => ⟨h.trimmed, h.home, h.unset⟩⟩

variable {e : Environment}

theorem expandHome_eq_self {p : String} (h : ∀ user ∈ homeUser? p, e.homeOf? user = none) :
    expandHome e p = p := by
  unfold expandHome
  split
  next cs hcs =>
    have hnone : e.homeOf? (String.ofList (cs.takeWhile (· != '/'))) = none :=
      h _ (by simp [homeUser?, hcs])
    simp only [hnone]
  next => rfl

/-- A reference to a variable that is not set is put back with all its characters. -/
theorem expandVariablesFrom_eq_drop {skip : Nat} {cs : List Char}
    (h : ∀ name ∈ referencesFrom skip cs, e.get? name = none) :
    expandVariablesFrom e skip cs = cs.drop skip := by
  fun_induction expandVariablesFrom e skip cs with
  | case1 skip => simp
  | case2 skip c cs ih => simpa using ih (by simpa [referencesFrom] using h)
  | case3 cs hnone ih =>
    rw [ih (by simpa [referencesFrom, hnone] using h)]
    simp
  | case4 cs name taken hsome value hvalue ih =>
    have hunset : e.get? (String.ofList name) = none := h _ (by simp [referencesFrom, hsome])
    rw [hunset] at hvalue
    cases hvalue
  | case5 cs name taken hsome hunset ih =>
    have hlater : ∀ n ∈ referencesFrom taken cs, e.get? n = none := fun n hn =>
      h n (by simp [referencesFrom, hsome, hn])
    rw [ih hlater, List.cons_append, List.take_append_drop, List.drop_zero]
  | case6 c cs hplain ih =>
    rw [ih (by simpa [referencesFrom, hplain] using h)]
    simp

theorem expandVariables_eq_self {p : String} (h : ∀ name ∈ references p, e.get? name = none) :
    expandVariables e p = p := by
  rw [expandVariables, expandVariablesFrom_eq_drop h, List.drop_zero, String.ofList_toList]

end Path

namespace Host

theorem normalizeSetting_of_literal {h : Host} {p : String} (hp : Path.Literal h.environment p)
    (hne : p ≠ "") (fallback : String) : h.normalizeSetting (some p) fallback = h.absolute p := by
  have hempty : p.isEmpty = false := by simpa using hne
  simp only [normalizeSetting, Option.getD_some, Text.trim_eq_self hp.trimmed, hempty,
    Bool.false_eq_true, if_false, Path.expandHome_eq_self hp.home,
    Path.expandVariables_eq_self hp.unset]

end Host
end FileSweep
