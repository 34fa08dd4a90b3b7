import HouseStyle.Text.Letter

/-!
# Reading decimals

A decimal text is read as digits and a power of ten, and rounded once to the
nearest double. Exponents far outside the range of doubles are settled without
computing the power.
-/

namespace HouseStyle.Decimal

open HouseStyle.Text

def digitValue (c : Char) : Nat := c.toNat - 48

def natOfDigits (digits : List Char) : Nat :=
  digits.foldl (fun n c => 10 * n + digitValue c) 0

/-- The double nearest to `digits · 10 ^ exponent`. -/
def ofDigits (digits : List Char) (exponent : Int) : Float :=
  let significant := digits.dropWhile (· = '0')
  let m := natOfDigits significant
  let top := exponent + significant.length
  if m = 0 ∨ top < -400 then 0.0
  else if 400 < top then 1.0 / 0.0
  else if 0 ≤ exponent then Float.ofScientific m false exponent.toNat
  else Float.ofScientific m true (-exponent).toNat

def negateIf (negative : Bool) (x : Float) : Float := if negative then -x else x

/-- Sign, if any, and the rest. -/
def takeSign : List Char → Bool × List Char
  | '-' :: rest => (true, rest)
  | '+' :: rest => (false, rest)
  | rest => (false, rest)

/-- Digits at the front, and the rest. -/
def takeDigits (s : List Char) : List Char × List Char :=
  (s.takeWhile isAsciiDigit, s.dropWhile isAsciiDigit)

/-- An exponent mark with a signed whole number, at the end of a decimal. -/
def readExponent? : List Char → Option Int
  | [] => some 0
  | mark :: rest =>
    if mark = 'e' ∨ mark = 'E' then
      let (negative, rest) := takeSign rest
      match takeDigits rest with
      | ([], _) => none
      | (digits, []) =>
        let n : Int := natOfDigits digits
        some (if negative then -n else n)
      | _ => none
    else none

/-- A decimal in its loosest form: sign, digits and point in any order that has a digit,
exponent; or the words for infinity and NaN in any case. -/
def readLoose? (text : String) : Option Float :=
  let (negative, body) := takeSign text.toList
  let lowered := String.ofList (body.map Char.toLower)
  if lowered = "inf" ∨ lowered = "infinity" then some (negateIf negative (1.0 / 0.0))
  else if lowered = "nan" then some (0.0 / 0.0)
  else
    let (whole, rest) := takeDigits body
    let (fraction, rest) :=
      match rest with
      | '.' :: rest => takeDigits rest
      | rest => ([], rest)
    if whole.isEmpty && fraction.isEmpty then none
    else
      (readExponent? rest).map fun exponent =>
        negateIf negative (ofDigits (whole ++ fraction) (exponent - fraction.length))

/-- A whole number without sign, or with a plus sign, below `bound`. -/
def readNat? (bound : Nat) (text : String) : Option Nat :=
  let body :=
    match text.toList with
    | '+' :: rest => rest
    | rest => rest
  if body.isEmpty || !body.all isAsciiDigit then none
  else
    let n := natOfDigits body
    if n < bound then some n else none

end HouseStyle.Decimal
