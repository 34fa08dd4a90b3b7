import HouseStyle.Decimal.Parts

/-!
# Decimals with a fixed number of places

The exact value of a double, rounded once to the asked number of decimal places.
-/

namespace HouseStyle.Decimal

/-- The digits of `n` in base ten, with zeros in front up to `width`. -/
def padded (width n : Nat) : List Char :=
  let digits := Nat.toDigits 10 n
  List.replicate (width - digits.length) '0' ++ digits

/-- `m · 2 ^ q · 10 ^ places`, rounded to a whole number. -/
def scaled (m : Nat) (q : Int) (places : Nat) : Nat :=
  if 0 ≤ q then m * twoTo q.toNat * tenTo places
  else roundDiv (m * tenTo places) (twoTo (-q).toNat)

/-- Sign, whole part, and a point with `places` digits when `places` is not 0. -/
def writeFixed (places : Nat) (negative : Bool) (n : Nat) : String :=
  let digits := padded (places + 1) n
  let whole := digits.take (digits.length - places)
  let fraction := digits.drop (digits.length - places)
  let body := if places = 0 then whole else whole ++ '.' :: fraction
  String.ofList (if negative then '-' :: body else body)

/-- A double with `places` digits after the point. A negative number keeps its sign
even when all its digits are 0. -/
def fixed (places : Nat) (x : Float) : String :=
  match parts x with
  | .nan => "NaN"
  | .infinite negative => if negative then "-inf" else "inf"
  | .finite negative m q _ => writeFixed places negative (scaled m q places)

end HouseStyle.Decimal
