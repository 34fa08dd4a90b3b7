/-!
# Keyed lists

Lists of values under keys, each key at most once, in the order in which the keys were
first put in. A value is looked up with `List.lookup`.
-/

namespace HouseStyle

variable {κ α : Type} [BEq κ]

/-- Put a value in the place of the one under the same key, or at the end. -/
def putKeyed (key : κ) (value : α) (entries : List (κ × α)) : List (κ × α) :=
  if entries.any (·.1 == key) then
    entries.map fun entry => if entry.1 == key then (key, value) else entry
  else entries ++ [(key, value)]

def eraseKeyed (key : κ) (entries : List (κ × α)) : List (κ × α) :=
  entries.filter (·.1 != key)

def hasKey (key : κ) (entries : List (κ × α)) : Bool := (entries.lookup key).isSome

end HouseStyle
