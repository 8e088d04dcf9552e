/-! Written numbers: an integer in a base, or its nearest double with fixed places, with an
exponent, or in whichever of the two forms is shorter. -/
namespace FileSweep
namespace Text

/-- The parts of a written number. Only `digits` may be grouped, or extended with zeros. -/
structure Numeral where
  negative : Bool := false
  /-- What tells the base, between the sign and the digits. -/
  mark : List Char := []
  digits : List Char := []
  /-- Whatever follows: a point with places, an exponent, a percent sign. -/
  tail : List Char := []
  deriving DecidableEq, Repr

/-- The integer nearest to a quotient, and of two equally near ones the even one. -/
def roundDiv (num den : Nat) : Nat :=
  let q := num / den
  let r := num % den
  if den < 2 * r ∨ (2 * r = den ∧ q % 2 = 1) then q + 1 else q

/-- The double nearest to an integer, unless it lies beyond all doubles. -/
def nearestDouble? (n : Nat) : Option Nat :=
  let step := Nat.pow 2 (n.log2 - 52)
  let m := roundDiv n step * step
  if m < Nat.pow 2 1024 then some m else none

/-- The leading digits of a number, `count` of them and rounded, with the power of ten that
the first one stands for. -/
def leadingDigits (count n : Nat) : List Char × Nat :=
  let all := Nat.toDigits 10 n
  if all.length ≤ count then
    (all ++ List.replicate (count - all.length) '0', all.length - 1)
  else
    let rounded := Nat.toDigits 10 (roundDiv n (Nat.pow 10 (all.length - count)))
    (rounded.take count, all.length - 1 + (rounded.length - count))

namespace Numeral

def ofInt (base : Nat) (mark : List Char) (n : Int) : Numeral :=
  { negative := n < 0, mark, digits := Nat.toDigits base n.natAbs }

/-- Places behind a point. Without places the point stands only if it is asked for. -/
def places (point : Bool) (ds : List Char) : List Char :=
  if ds.isEmpty && !point then [] else '.' :: ds

/-- A power of ten, with two digits at least. -/
def exponent (letter : Char) (power : Nat) : List Char :=
  letter :: '+' :: (if power < 10 then '0' :: Nat.toDigits 10 power else Nat.toDigits 10 power)

def fixed (point : Bool) (count n : Nat) : Numeral :=
  { digits := Nat.toDigits 10 n, tail := places point (List.replicate count '0') }

/-- Digits of which the first stands for a power of ten. -/
def scientific (point : Bool) (letter : Char) (ds : List Char) (power : Nat) : Numeral :=
  { digits := ds.take 1, tail := places point (ds.drop 1) ++ exponent letter power }

def dropLastZeros (ds : List Char) : List Char := (ds.reverse.dropWhile (· == '0')).reverse

/-- A number with `count` digits, with an exponent only if they do not reach the point. The
zeros at the end of the places are dropped, unless the point is asked for. -/
def general (point : Bool) (letter : Char) (count n : Nat) : Numeral :=
  let (ds, power) := leadingDigits count n
  let trim (places : List Char) : List Char := if point then places else dropLastZeros places
  if power < count then
    { digits := ds.take (power + 1), tail := places point (trim (ds.drop (power + 1))) }
  else scientific point letter (ds.take 1 ++ trim (ds.drop 1)) power

end Numeral
end Text
end FileSweep
