import HouseStyle.Decimal.Read
import HouseStyle.Json.Basic
import HouseStyle.Word

/-!
# Reading JSON

A strict reader: no comments, no trailing commas, no control characters inside texts. A
whole number outside the range of 64-bit words is read as a decimal. Four kinds of
values are `beyond` what can be held: a decimal too large for a double, a text with half
of a surrogate pair, an object with such a key, and lists and objects nested more than
127 deep. They do no harm in a field that nobody asks for.
-/

namespace HouseStyle.Json

open HouseStyle.Text

def isSpace (c : Char) : Bool := c == ' ' || c == '\n' || c == '\r' || c == '\t'

def skipSpace (s : List Char) : List Char := s.dropWhile isSpace

def hexValue? (c : Char) : Option Nat :=
  if isAsciiDigit c then some (c.toNat - 48)
  else if 97 ≤ c.toNat && c.toNat ≤ 102 then some (c.toNat - 87)
  else if 65 ≤ c.toNat && c.toNat ≤ 70 then some (c.toNat - 55)
  else none

/-- Four hexadecimal digits as one number. -/
def hexUnit? (a b c d : Char) : Option Nat := do
  let a ← hexValue? a
  let b ← hexValue? b
  let c ← hexValue? c
  let d ← hexValue? d
  some (a * 4096 + b * 256 + c * 16 + d)

/-- The character of a one-letter escape. -/
def unescape? : Char → Option Char
  | '"' => some '"'
  | '\\' => some '\\'
  | '/' => some '/'
  | 'b' => some '\x08'
  | 'f' => some '\x0c'
  | 'n' => some '\n'
  | 'r' => some '\r'
  | 't' => some '\t'
  | _ => none

/-- The character that the two halves of a surrogate pair stand for. -/
def pairedChar (high low : Nat) : Char :=
  Char.ofNat (0x10000 + (high - 0xD800) * 1024 + (low - 0xDC00))

def isHighHalf (unit : Nat) : Bool := 0xD800 ≤ unit && unit ≤ 0xDBFF

def isLowHalf (unit : Nat) : Bool := 0xDC00 ≤ unit && unit ≤ 0xDFFF

/-- The rest of a quoted text after its opening quote. `read` holds the characters so far,
the last one first, or nothing once half of a surrogate pair was met. `half` is the first
half of a pair that was just read. -/
def readText (read : Option (List Char)) (half : Option Nat) :
    List Char → Option (Option (List Char) × List Char)
  | [] => none
  | '"' :: rest => some (if half.isSome then none else read.map List.reverse, rest)
  | '\\' :: 'u' :: a :: b :: c :: d :: rest => do
    let unit ← hexUnit? a b c d
    match half with
    | some high =>
      if isLowHalf unit then readText (read.map (pairedChar high unit :: ·)) none rest
      else readText none none rest
    | none =>
      if isHighHalf unit then readText read (some unit) rest
      else if isLowHalf unit then readText none none rest
      else readText (read.map (Char.ofNat unit :: ·)) none rest
  | '\\' :: c :: rest => do
    let c ← unescape? c
    readText (if half.isSome then none else read.map (c :: ·)) none rest
  | c :: rest =>
    if c.toNat < 32 || c = '\\' then none
    else readText (if half.isSome then none else read.map (c :: ·)) none rest

/-- The digits of a whole part: one zero, or no zero in front. -/
def readWhole (s : List Char) : Option (List Char × List Char) :=
  match Decimal.takeDigits s with
  | ([], _) => none
  | ('0' :: _ :: _, _) => none
  | (digits, rest) => some (digits, rest)

/-- A point with digits, if there is one. -/
def readFraction (s : List Char) : Option (Option (List Char) × List Char) :=
  match s with
  | '.' :: rest =>
    match Decimal.takeDigits rest with
    | ([], _) => none
    | (digits, rest) => some (some digits, rest)
  | _ => some (none, s)

/-- An exponent mark with a signed whole number, if there is one. -/
def readPower (s : List Char) : Option (Option Int × List Char) :=
  match s with
  | [] => some (none, s)
  | mark :: rest =>
    if mark = 'e' ∨ mark = 'E' then
      let (negative, rest) := Decimal.takeSign rest
      match Decimal.takeDigits rest with
      | ([], _) => none
      | (digits, rest) =>
        let n : Int := Decimal.natOfDigits digits
        some (some (if negative then -n else n), rest)
    else some (none, s)

/-- The value of a whole number: 64-bit words stay whole, `-0` and larger ones do not. -/
def wholeNumber (negative : Bool) (digits : List Char) : Json :=
  let n := Decimal.natOfDigits digits
  if negative then
    if n = 0 ∨ Word.half < n then real (-(Decimal.ofDigits digits 0)) else int (-n)
  else if n < Word.bound then int n
  else real (Decimal.ofDigits digits 0)

/-- A number and what follows it. -/
def readNumber (s : List Char) : Option (Json × List Char) := do
  let (negative, s) := match s with
    | '-' :: rest => (true, rest)
    | _ => (false, s)
  let (whole, s) ← readWhole s
  let (fraction, s) ← readFraction s
  let (power, s) ← readPower s
  match fraction, power with
  | none, none =>
    match wholeNumber negative whole with
    | real x => some (if x.isFinite then real x else beyond, s)
    | value => some (value, s)
  | _, _ =>
    let places := fraction.getD []
    let x := Decimal.ofDigits (whole ++ places) (power.getD 0 - places.length)
    some (if x.isFinite then real (Decimal.negateIf negative x) else beyond, s)

/-- Drop an expected word from the front. -/
def expect (word : List Char) (value : Json) (s : List Char) : Option (Json × List Char) :=
  if word.isPrefixOf s then some (value, s.drop word.length) else none

/-- A list or object with so many levels left, itself included. -/
def nested (depth : Nat) (value : Json) : Json := if depth ≤ 1 then beyond else value

mutual

/-- A value and what follows it. `fuel` bounds the work and `depth` the nesting left. -/
def readValue (fuel depth : Nat) (s : List Char) : Option (Json × List Char) :=
  match fuel with
  | 0 => none
  | fuel + 1 =>
    match skipSpace s with
    | 'n' :: rest => expect "ull".toList null rest
    | 't' :: rest => expect "rue".toList (bool true) rest
    | 'f' :: rest => expect "alse".toList (bool false) rest
    | '"' :: rest =>
      (readText (some []) none rest).map fun (read, rest) =>
        ((read.map fun read => text (String.ofList read)).getD beyond, rest)
    | '[' :: rest =>
      match skipSpace rest with
      | ']' :: rest => some (nested depth (list []), rest)
      | rest =>
        (readItems fuel (depth - 1) rest).map fun (items, rest) =>
          (nested depth (list items), rest)
    | '{' :: rest =>
      match skipSpace rest with
      | '}' :: rest => some (nested depth (object []), rest)
      | rest =>
        (readFields fuel (depth - 1) rest).map fun (fields, rest) =>
          ((fields.map fun fields => nested depth (object fields)).getD beyond, rest)
    | rest => readNumber rest

/-- One item or more, up to the closing bracket. -/
def readItems (fuel depth : Nat) (s : List Char) : Option (List Json × List Char) :=
  match fuel with
  | 0 => none
  | fuel + 1 =>
    match readValue fuel depth s with
    | none => none
    | some (item, rest) =>
      match skipSpace rest with
      | ',' :: rest => (readItems fuel depth rest).map fun (items, rest) => (item :: items, rest)
      | ']' :: rest => some ([item], rest)
      | _ => none

/-- One field or more, up to the closing brace. There are no fields when a key is beyond. -/
def readFields (fuel depth : Nat) (s : List Char) :
    Option (Option (List (String × Json)) × List Char) :=
  match fuel with
  | 0 => none
  | fuel + 1 =>
    match skipSpace s with
    | '"' :: rest =>
      match readText (some []) none rest with
      | none => none
      | some (key, rest) =>
        match skipSpace rest with
        | ':' :: rest =>
          match readValue fuel depth rest with
          | none => none
          | some (value, rest) =>
            let field := key.map fun key => (String.ofList key, value)
            match skipSpace rest with
            | ',' :: rest =>
              (readFields fuel depth rest).map fun (fields, rest) =>
                (field.bind fun field => fields.map (field :: ·), rest)
            | '}' :: rest => some (field.map fun field => [field], rest)
            | _ => none
        | _ => none
    | _ => none

end

/-- How deep values may be nested, the value itself included. -/
def maxDepth : Nat := 128

/-- The value written by a whole text. Every step of the reader passes a character, or
opens an item or a field, so twice the length bounds the work. -/
def parse? (source : String) : Option Json :=
  let s := source.toList
  match readValue (2 * s.length + 2) maxDepth s with
  | some (value, rest) => if (skipSpace rest).isEmpty then some value else none
  | none => none

end HouseStyle.Json
