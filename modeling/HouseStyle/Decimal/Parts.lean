import HouseStyle.Word

/-!
# The parts of a binary number

A finite double is `± m · 2 ^ q` with whole `m` and `q`. All decimal texts are
computed from these parts in whole numbers, and the order of stored numbers is
read off the bits.
-/

namespace HouseStyle.Decimal

/-- What a double stands for. `narrow` tells that the gap below is half the gap above. -/
inductive Parts where
  | nan
  | infinite (negative : Bool)
  | finite (negative : Bool) (mantissa : Nat) (exponent : Int) (narrow : Bool)
  deriving DecidableEq, Repr

/-- Decode the bits of a double: one sign bit, eleven exponent bits, 52 fraction bits. -/
def parts (x : Float) : Parts :=
  let bits := x.toBits.toNat
  let negative := Word.half ≤ bits
  let field : Nat := bits / twoTo 52 % twoTo 11
  let fraction : Nat := bits % twoTo 52
  if field = 2047 then
    if fraction = 0 then .infinite negative else .nan
  else if field = 0 then .finite negative fraction (-1074) false
  else .finite negative (twoTo 52 + fraction) ((field : Int) - 1075) (fraction = 0 && field ≠ 1)

/-- The place of a number on the line of all doubles. Both zeros stand at 0, and of two
numbers that are no NaN the smaller one has the smaller rank. -/
def rank (x : Float) : Int :=
  let bits := x.toBits.toNat
  if Word.half ≤ bits then -((bits - Word.half : Nat) : Int) else bits

/-- The same number, a zero without its sign. -/
def unsignedZero (x : Float) : Float := if x == 0.0 then 0.0 else x

theorem unsignedZero_idem (x : Float) : unsignedZero (unsignedZero x) = unsignedZero x := by
  unfold unsignedZero
  split
  · exact ite_self _
  · rfl

/-- The quotient rounded to the nearest whole number, a half to the even neighbour. -/
def roundDiv (num den : Nat) : Nat :=
  let q := num / den
  let r := num % den
  if den < 2 * r ∨ (2 * r = den ∧ q % 2 = 1) then q + 1 else q

theorem roundDiv_within_half (num den : Nat) (h : 0 < den) :
    2 * num ≤ (2 * roundDiv num den + 1) * den ∧
      2 * roundDiv num den * den ≤ 2 * num + den := by
  have hdiv := Nat.div_add_mod num den
  have hmod := Nat.mod_lt num h
  have hcomm : den * (num / den) = num / den * den := Nat.mul_comm _ _
  unfold roundDiv
  simp only
  split
  next hr =>
    constructor
    · rw [Nat.add_mul, Nat.mul_assoc, Nat.add_mul]; omega
    · rw [Nat.mul_assoc, Nat.add_mul]; omega
  next hr =>
    constructor
    · rw [Nat.add_mul, Nat.mul_assoc]; omega
    · rw [Nat.mul_assoc]; omega

end HouseStyle.Decimal
