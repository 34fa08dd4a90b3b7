import HouseStyle.Json.Decode

/-!
# Columns

A column reads one field of a row as JSON and writes it back. A row type that lists
its columns has a JSON form in both directions; a field that is missing or of another
type keeps its value in the row that is written over.
-/

namespace HouseStyle

structure Column (ρ : Type) where
  name : String
  read : ρ → Json
  write : Json → ρ → ρ

namespace Column

variable {ρ α : Type}

/-- Write a decoded value, or leave the row alone. -/
private def writing (decode : Json → Option α) (set : α → ρ → ρ) (value : Json) (row : ρ) : ρ :=
  match decode value with
  | some a => set a row
  | none => row

def text (name : String) (get : ρ → String) (set : String → ρ → ρ) : Column ρ :=
  ⟨name, fun row => .text (get row), writing Json.asText? set⟩

def textOption (name : String) (get : ρ → Option String) (set : Option String → ρ → ρ) :
    Column ρ :=
  ⟨name, fun row => .ofOption .text (get row), writing (Json.asOption? Json.asText?) set⟩

def int (name : String) (get : ρ → Int) (set : Int → ρ → ρ) : Column ρ :=
  ⟨name, fun row => .int (get row), writing Json.asInt? set⟩

def intOption (name : String) (get : ρ → Option Int) (set : Option Int → ρ → ρ) : Column ρ :=
  ⟨name, fun row => .ofOption .int (get row), writing (Json.asOption? Json.asInt?) set⟩

def real (name : String) (get : ρ → Float) (set : Float → ρ → ρ) : Column ρ :=
  ⟨name, fun row => .real (get row), writing Json.asMeasure? set⟩

def bool (name : String) (get : ρ → Bool) (set : Bool → ρ → ρ) : Column ρ :=
  ⟨name, fun row => .bool (get row), writing Json.asBool? set⟩

/-- The JSON form of a row. -/
def encode (columns : List (Column ρ)) (row : ρ) : Json :=
  .object (columns.map fun column => (column.name, column.read row))

/-- Write the fields of an object over a row. -/
def decode (columns : List (Column ρ)) (row : ρ) (value : Json) : ρ :=
  columns.foldl (fun row column =>
    match value.field? column.name with
    | some field => column.write field row
    | none => row) row

end Column

end HouseStyle
