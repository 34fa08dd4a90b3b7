import HouseStyle.Decimal.Shortest

/-!
# JSON values and their compact text

Whole numbers and decimals are told apart, and an object keeps its fields in the
order they were written. `Json.render` writes a value without any blanks.
-/

namespace HouseStyle

inductive Json where
  | null
  | bool (value : Bool)
  | int (value : Int)
  | real (value : Float)
  | text (value : String)
  | list (items : List Json)
  | object (fields : List (String × Json))
  /-- A value that is well written but cannot be held. -/
  | beyond
  deriving Inhabited

namespace Json

def hexDigit (n : Nat) : Char := (Nat.toDigits 16 n).headD '0'

/-- A character inside a quoted text: quotes, backslashes and control characters are escaped. -/
def escape (c : Char) : List Char :=
  if c = '"' then ['\\', '"']
  else if c = '\\' then ['\\', '\\']
  else if c = '\x08' then ['\\', 'b']
  else if c = '\x0c' then ['\\', 'f']
  else if c = '\n' then ['\\', 'n']
  else if c = '\r' then ['\\', 'r']
  else if c = '\t' then ['\\', 't']
  else if c.toNat < 32 then
    ['\\', 'u', '0', '0', hexDigit (c.toNat / 16), hexDigit (c.toNat % 16)]
  else [c]

def quote (s : List Char) : List Char := '"' :: s.flatMap escape ++ ['"']

mutual

def write : Json → List Char
  | null => "null".toList
  | bool value => if value then "true".toList else "false".toList
  | int value => (toString value).toList
  | real value =>
    if value.isFinite then (Decimal.stored value).toList else "null".toList
  | text value => quote value.toList
  | list items => '[' :: writeItems items ++ [']']
  | object fields => '{' :: writeFields fields ++ ['}']
  | beyond => "null".toList

def writeItems : List Json → List Char
  | [] => []
  | [item] => write item
  | item :: others => write item ++ ',' :: writeItems others

def writeFields : List (String × Json) → List Char
  | [] => []
  | [(key, value)] => quote key.toList ++ ':' :: write value
  | (key, value) :: others =>
    quote key.toList ++ ':' :: write value ++ ',' :: writeFields others

end

/-- The text of a value, without blanks. -/
def render (value : Json) : String := String.ofList value.write

def ofNat (n : Nat) : Json := int n

/-- A number, or `null` for one that JSON cannot write. -/
def ofReal (x : Float) : Json := if x.isFinite then real x else null

/-- A missing value is written as `null`. -/
def ofOption {α : Type} (encode : α → Json) : Option α → Json
  | none => null
  | some a => encode a

def ofTexts (texts : List String) : Json := list (texts.map text)

/-- Insert a field before the first one with a larger key; the last of equal keys stays. -/
def insertField (key : String) (value : Json) : List (String × Json) → List (String × Json)
  | [] => [(key, value)]
  | (k, v) :: others =>
    if key < k then (key, value) :: (k, v) :: others
    else if key = k then (key, value) :: others
    else (k, v) :: insertField key value others

mutual

/-- The same value with every object's fields sorted by key and each key once, the last
one written. -/
def sorted : Json → Json
  | list items => list (sortedItems items)
  | object fields => object (sortedFields [] fields)
  | other => other

def sortedItems : List Json → List Json
  | [] => []
  | item :: others => sorted item :: sortedItems others

def sortedFields (done : List (String × Json)) : List (String × Json) → List (String × Json)
  | [] => done
  | (key, value) :: others => sortedFields (insertField key (sorted value) done) others

end

mutual

/-- Whether the value and all that is in it can be held. -/
def isHeld : Json → Bool
  | list items => areHeld items
  | object fields => fieldsAreHeld fields
  | beyond => false
  | null | bool _ | int _ | real _ | text _ => true

def areHeld : List Json → Bool
  | [] => true
  | item :: others => isHeld item && areHeld others

def fieldsAreHeld : List (String × Json) → Bool
  | [] => true
  | (_, value) :: others => isHeld value && fieldsAreHeld others

end

end Json

end HouseStyle
