import HouseStyle.Json.Decode

/-!
# Arguments by name

Fields of an object with something to fall back on: a missing field, or one of another
type, counts as the empty text, zero, false, an empty list or nothing.
-/

namespace HouseStyle.Json

def textAt (step : Json) (key : String) : String :=
  ((step.field? key).bind asText?).getD ""

def optionalTextAt (step : Json) (key : String) : Option String :=
  (step.field? key).bind asText?

def intAt (step : Json) (key : String) : Int := ((step.field? key).bind asInt?).getD 0

def optionalIntAt (step : Json) (key : String) : Option Int := (step.field? key).bind asInt?

def wordAt (step : Json) (key : String) : Nat := ((step.field? key).bind asWord64?).getD 0

def boolAt (step : Json) (key : String) : Bool := ((step.field? key).bind asBool?).getD false

def realAt (step : Json) (key : String) : Float :=
  ((step.field? key).bind asMeasure?).getD 0.0

def listAt (step : Json) (key : String) : List Json :=
  match step.field? key with
  | some (list items) => items
  | _ => []

def objectAt (step : Json) (key : String) : Json := (step.field? key).getD (object [])

def isNull : Json → Bool
  | null => true
  | _ => false

/-- Whether a field is there and is not `null`. -/
def hasAt (step : Json) (key : String) : Bool :=
  match step.field? key with
  | none | some null => false
  | some _ => true

end HouseStyle.Json
