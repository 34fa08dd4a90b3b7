import HouseStyle.Decimal.Fixed

/-!
# Shortest decimals

The fewest significant digits that read back as the same double, and of those the
nearest to its exact value. Two notations write these digits: a plain one without
an exponent, and the one used inside stored texts.
-/

namespace HouseStyle.Decimal

/-- Digits `d` and exponent `e` of the number `d · 10 ^ e`. -/
structure Digits where
  digits : List Char
  exponent : Int
  deriving DecidableEq, Repr

/-- Whether `c · 10 ^ e` lies among the numbers that round to `m · 2 ^ q`. The borders
belong to them when `m` is even. All sides are scaled to whole numbers. -/
def readsBack (m : Nat) (q : Int) (narrow : Bool) (c : Nat) (e : Int) : Bool :=
  let unit := q - 2
  let scale (value : Nat) (two ten : Int) : Nat :=
    value * twoTo two.toNat * tenTo ten.toNat
  let candidate := scale c (-unit) e
  let low := scale (4 * m - if narrow then 1 else 2) unit (-e)
  let high := scale (4 * m + 2) unit (-e)
  if m % 2 = 0 then low ≤ candidate && candidate ≤ high
  else low < candidate && candidate < high

/-- How far `c · 10 ^ e` is from `m · 2 ^ q`, in a unit common to all `c`. -/
def distance (m : Nat) (q : Int) (c : Nat) (e : Int) : Nat :=
  let here := c * twoTo (-q).toNat * tenTo e.toNat
  let exact := m * twoTo q.toNat * tenTo (-e).toNat
  (here - exact) + (exact - here)

/-- The largest `c` with `c · 10 ^ e ≤ m · 2 ^ q`. -/
def below (m : Nat) (q e : Int) : Nat :=
  (m * twoTo q.toNat * tenTo (-e).toNat) / (twoTo (-q).toNat * tenTo e.toNat)

/-- The power of ten of the first digit of `m · 2 ^ q`, for positive `m`. -/
def magnitude (m : Nat) (q : Int) : Int :=
  ((Nat.toDigits 10 (below m q (-330))).length : Int) - 331

/-- A number with `count` digits that reads back, if there is one. -/
def shortAt (m : Nat) (q : Int) (narrow : Bool) (top : Int) (count : Nat) :
    Option (Nat × Int) :=
  let e := top + 1 - count
  let c := below m q e
  match readsBack m q narrow c e, readsBack m q narrow (c + 1) e with
  | true, true =>
    let lower := distance m q c e
    let upper := distance m q (c + 1) e
    if lower < upper ∨ (lower = upper ∧ c % 2 = 0) then some (c, e) else some (c + 1, e)
  | true, false => some (c, e)
  | false, true => some (c + 1, e)
  | false, false => none

/-- Zeros at the end move into the exponent. -/
def stripZeros (c : Nat) (e : Int) : Digits :=
  let reversed := (Nat.toDigits 10 c).reverse
  let kept := reversed.dropWhile (· = '0')
  ⟨kept.reverse, e + ((reversed.length - kept.length : Nat) : Int)⟩

/-- The shortest digits of `m · 2 ^ q`. Seventeen digits always suffice. -/
def shortest (m : Nat) (q : Int) (narrow : Bool) : Digits :=
  if m = 0 then ⟨['0'], 0⟩
  else
    let top := magnitude m q
    match ((List.range 17).map (· + 1)).findSome? (shortAt m q narrow top) with
    | some (c, e) => stripZeros c e
    | none => stripZeros (below m q (top - 16)) (top - 16)

/-- Digits without an exponent, and without a point when nothing follows it. -/
def positional (d : Digits) : List Char :=
  if 0 ≤ d.exponent then d.digits ++ List.replicate d.exponent.toNat '0'
  else
    let places := (-d.exponent).toNat
    let digits := List.replicate (places + 1 - d.digits.length) '0' ++ d.digits
    digits.take (digits.length - places) ++ '.' :: digits.drop (digits.length - places)

/-- Positional from `1e-5` up to below `1e16`, always with a point; beyond that one digit,
the others after a point, and an exponent. -/
def compact (d : Digits) : List Char :=
  if d.digits = ['0'] then "0.0".toList
  else
    let point := d.exponent + d.digits.length
    if 0 ≤ d.exponent ∧ point ≤ 16 then positional d ++ ['.', '0']
    else if -5 < point ∧ point ≤ 16 then positional d
    else
      let mark := 'e' :: (toString (point - 1)).toList
      match d.digits with
      | [] => mark
      | [single] => single :: mark
      | first :: others => first :: '.' :: others ++ mark

private def writeWith (body : Digits → List Char) (x : Float) : String :=
  match parts x with
  | .nan => "NaN"
  | .infinite negative => if negative then "-inf" else "inf"
  | .finite negative m q narrow =>
    let text := body (shortest m q narrow)
    String.ofList (if negative then '-' :: text else text)

/-- The shortest decimal without an exponent, as in messages: `1.5`, `2`, `0.0000001`. -/
def plain (x : Float) : String := writeWith positional x

/-- The shortest decimal as written in stored texts: `0.5`, `2.0`, `1e-7`. -/
def stored (x : Float) : String := writeWith compact x

/-- The shortest decimal without an exponent but always with a point: `0.9`, `1.0`. -/
def pointed (x : Float) : String :=
  writeWith (fun d => positional d ++ if 0 ≤ d.exponent then ['.', '0'] else []) x

end HouseStyle.Decimal
