/-! JSON values. Numbers with a fraction or an exponent are kept as written, apart from
integers, and an object is a list of members with distinct names in order of appearance. -/
namespace FileSweep
namespace Json

/-- A number that is not an integer literal: a decimal, or one of the values beyond them. -/
inductive Real where
  /-- The number `digits * 10 ^ exponent`, negated if so marked. -/
  | decimal (negative : Bool) (digits : Nat) (exponent : Int)
  | infinity (negative : Bool)
  | nan
  deriving DecidableEq, Repr

inductive Value where
  | null
  | bool (b : Bool)
  | int (n : Int)
  | real (r : Real)
  | str (s : String)
  | arr (items : List Value)
  | obj (members : List (String × Value))
  deriving Repr, Inhabited

namespace Real

/-- Whether `digits * 10 ^ exponent` compares to `num / 2 ^ den` as the test on
cross-multiplied naturals says. -/
def compareWith (test : Nat → Nat → Bool) (digits : Nat) (exponent : Int) (num den : Nat) :
    Bool :=
  test (digits * Nat.pow 10 exponent.toNat * Nat.pow 2 den) (num * Nat.pow 10 (-exponent).toNat)

/-- The place of the leading digit, as a power of ten. -/
def magnitude (digits : Nat) (exponent : Int) : Int :=
  ((Nat.toDigits 10 digits).length : Int) + exponent

/-- Whether the nearest double is zero. -/
def isZero : Real → Bool
  | decimal _ digits exponent =>
    digits == 0 || magnitude digits exponent < -330 ||
      (magnitude digits exponent < 0 &&
        compareWith (fun a b => a ≤ b) digits exponent 1 1075)
  | _ => false

def isOne : Real → Bool
  | decimal false digits exponent =>
    -2 < magnitude digits exponent && magnitude digits exponent < 3 &&
      compareWith (fun a b => b ≤ a) digits exponent (Nat.pow 2 54 - 1) 54 &&
      compareWith (fun a b => a ≤ b) digits exponent (Nat.pow 2 53 + 1) 53
  | _ => false

def isNegative : Real → Bool
  | decimal negative _ _ => negative
  | infinity negative => negative
  | nan => false

end Real

namespace Value

def typeName : Value → String
  | null => "NoneType"
  | bool _ => "bool"
  | int _ => "int"
  | real _ => "float"
  | str _ => "str"
  | arr _ => "list"
  | obj _ => "dict"

/-- Whether a value counts as true: zero and whatever is empty does not. -/
def truthy : Value → Bool
  | null => false
  | bool b => b
  | int n => n != 0
  | real r => !r.isZero
  | str s => !s.isEmpty
  | arr items => !items.isEmpty
  | obj members => !members.isEmpty

def string? : Value → Option String
  | str s => some s
  | _ => none

end Value

/-- Gives a member a value: in its place if the name occurs, and at the end if not. -/
def insertMember (members : List (String × Value)) (name : String) (value : Value) :
    List (String × Value) :=
  match members with
  | [] => [(name, value)]
  | (n, v) :: rest =>
    if n = name then (name, value) :: rest else (n, v) :: insertMember rest name value

def insertAll (members : List (String × Value)) (updates : List (String × Value)) :
    List (String × Value) :=
  updates.foldl (fun ms (n, v) => insertMember ms n v) members

@[simp] theorem lookup_insertMember (members : List (String × Value)) (name : String)
    (value : Value) : (insertMember members name value).lookup name = some value := by
  induction members with
  | nil => simp [insertMember]
  | cons m rest ih =>
    obtain ⟨n, v⟩ := m
    by_cases h : n = name
    · simp [insertMember, h]
    · have h' : (name == n) = false := by simp [Ne.symm h]
      simp [insertMember, h, List.lookup_cons, h', ih]

end Json
end FileSweep
