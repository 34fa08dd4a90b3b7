import HouseStyle.Keyed
import HouseStyle.Store.Fault

/-!
# The numbers of rows

A database numbers the rows that are inserted into a table, and whoever opened it can ask
for the number of the row inserted last. Patterns and tracked files go on from the largest
number in use, so that the number of a deleted last row comes back; every other table
never gives a number twice.
-/

namespace HouseStyle

structure RowNumbers where
  /-- The numbers of the patterns, in the order of their rows. -/
  patterns : List Nat
  /-- The numbers of the tracked files, in the order of their rows. -/
  files : List Nat
  /-- How many rows were ever inserted into each of the other tables. -/
  issued : List (Table × Nat)
  /-- The number of the row inserted last since the database was opened, or 0. -/
  last : Nat

namespace RowNumbers

/-- A new database has inserted one row already, the one that holds its version. -/
def fresh : RowNumbers := ⟨[], [], [], 1⟩

/-- Nothing was inserted yet since the database was opened. -/
def reopened (numbers : RowNumbers) : RowNumbers := { numbers with last := 0 }

/-- The number after those of a table's rows, which rise. -/
def following (numbers : List Nat) : Nat := numbers.getLast?.getD 0 + 1

def addPattern (numbers : RowNumbers) : RowNumbers :=
  let next := following numbers.patterns
  { numbers with patterns := numbers.patterns ++ [next], last := next }

def addFile (numbers : RowNumbers) : RowNumbers :=
  let next := following numbers.files
  { numbers with files := numbers.files ++ [next], last := next }

/-- Number rows of a table that never gives a number twice. -/
def add (numbers : RowNumbers) (table : Table) (count : Nat) : RowNumbers :=
  if count = 0 then numbers
  else
    let total := (numbers.issued.lookup table).getD 0 + count
    { numbers with issued := putKeyed table total numbers.issued, last := total }

/-- What is left of the numbers of rows when those rows that fit are deleted. -/
def keep {ρ : Type} (fits : ρ → Bool) (rows : List ρ) (numbers : List Nat) : List Nat :=
  ((rows.zip numbers).filter fun (row, _) => !fits row).map (·.2)

end RowNumbers

end HouseStyle
