import HouseStyle.Json.Reader
import HouseStyle.Word

/-!
# Taking values out of JSON

A record may be written as an object, or as the list of its fields in order. Each
field says whether it may be left out. Unknown fields of an object are ignored; a
known one must not be written twice.
-/

namespace HouseStyle.Json

def asText? : Json → Option String
  | text value => some value
  | _ => none

def asBool? : Json → Option Bool
  | bool value => some value
  | _ => none

/-- A whole number from 0 up to below `bound`. -/
def asNat? (bound : Nat) : Json → Option Nat
  | int value => if 0 ≤ value ∧ value < bound then some value.toNat else none
  | _ => none

def asWord32? : Json → Option Nat := asNat? Word.bound32

def asWord64? : Json → Option Nat := asNat? Word.bound

/-- A whole number that fits a signed 64-bit word. -/
def asInt? : Json → Option Int
  | int value => if Word.isSigned value then some value else none
  | _ => none

def floatOfInt (value : Int) : Float :=
  if value < 0 then -(Float.ofNat value.natAbs) else Float.ofNat value.toNat

def asReal? : Json → Option Float
  | real value => some value
  | int value => some (floatOfInt value)
  | _ => none

/-- A number, or the word for a number that JSON cannot write. -/
def asMeasure? : Json → Option Float
  | text "NaN" => some (0.0 / 0.0)
  | text "inf" => some (1.0 / 0.0)
  | text "-inf" => some (-1.0 / 0.0)
  | value => value.asReal?

def asList? {α : Type} (decode : Json → Option α) : Json → Option (List α)
  | list items => items.mapM decode
  | _ => none

/-- `null` stands for no value. -/
def asOption? {α : Type} (decode : Json → Option α) : Json → Option (Option α)
  | null => some none
  | value => (decode value).map some

/-- The name of a choice without data: a text, or an object from the name to `null`. -/
def asChoice? : Json → Option String
  | text name => some name
  | object [(name, null)] => some name
  | _ => none

/-- A choice inside a tagged record, where an empty object also stands for no data. -/
def asTaggedChoice? : Json → Option String
  | object [(name, object [])] => some name
  | value => value.asChoice?

/-- The tag of a record inside a tagged record: a name, or its place among `names`. -/
def tagName? (names : List String) : Json → Option String
  | text name => some name
  | int place => if 0 ≤ place then names[place.toNat]? else none
  | _ => none

/-- Whether a field may be left out: never; in an object only; always. -/
inductive Presence where
  | required
  | optional
  | defaulted
  deriving DecidableEq, Repr

/-- The value of a field that an object should hold at most once. -/
def fieldOf? (fields : List (String × Json)) (key : String) (presence : Presence) :
    Option (Option Json) :=
  match fields.filter (·.1 == key) with
  | [] => if presence = .required then none else some none
  | [(_, value)] => some (some value)
  | _ => none

/-- Fields by position: an item for each, as long as there are items. -/
def positions? : List (String × Presence) → List Json → Option (List (Option Json))
  | [], [] => some []
  | [], _ :: _ => none
  | (_, presence) :: names, [] =>
    if presence = .defaulted then (positions? names []).map (none :: ·) else none
  | _ :: names, item :: items => (positions? names items).map (some item :: ·)

/-- The fields of a record in the order of `names`. -/
def record? (names : List (String × Presence)) : Json → Option (List (Option Json))
  | object fields => names.mapM fun (key, presence) => fieldOf? fields key presence
  | list items => positions? names items
  | _ => none

/-- A field that must be there. -/
def need? {α : Type} (decode : Json → Option α) (field : Option Json) : Option α :=
  field.bind decode

/-- A field with a value to fall back on when it is left out. -/
def orElse? {α : Type} (fallback : α) (decode : Json → Option α) (field : Option Json) :
    Option α :=
  match field with
  | none => some fallback
  | some value => decode value

/-- The field of an object, when there is one. -/
def field? (key : String) : Json → Option Json
  | object fields => fields.lookup key
  | _ => none

/-- The tag that chooses between records, and the record without it. -/
def tagged? (key : String) : Json → Option (Json × Json)
  | object fields =>
    match fields.filter (·.1 == key) with
    | [(_, tag)] => some (tag, object (fields.filter (·.1 != key)))
    | _ => none
  | list (tag :: items) => some (tag, list items)
  | _ => none

end HouseStyle.Json
