import HouseStyle.Error.Storage

/-!
# Faults of a database

A database may refuse writes: each table can have one block for each kind of write,
which either fails with a message of the engine or drops the write in silence. Other
writers may also win a number of races for one signature.
-/

namespace HouseStyle

inductive Table where
  | patterns
  | concepts
  | evidence
  | trackedFiles
  | learningDeltas
  | deltaOperations
  | tombstones
  | exceptions
  | violations
  | storeMeta
  | projects
  | aggregations
  | occurrences
  deriving DecidableEq, Repr, Inhabited

namespace Table

def all : List Table :=
  [patterns, concepts, evidence, trackedFiles, learningDeltas, deltaOperations, tombstones,
    exceptions, violations, storeMeta, projects, aggregations, occurrences]

def name : Table → String
  | patterns => "patterns"
  | concepts => "concepts"
  | evidence => "evidence"
  | trackedFiles => "tracked_files"
  | learningDeltas => "learning_deltas"
  | deltaOperations => "delta_operations"
  | tombstones => "pattern_tombstones"
  | exceptions => "pattern_exceptions"
  | violations => "violation_history"
  | storeMeta => "store_meta"
  | projects => "projects"
  | aggregations => "pattern_aggregations"
  | occurrences => "aggregation_occurrences"

def ofName? (text : String) : Option Table := all.find? (·.name == text)

end Table

inductive WriteKind where
  | insert
  | update
  | delete
  deriving DecidableEq, Repr, Inhabited

def WriteKind.ofName? : String → Option WriteKind
  | "INSERT" => some insert
  | "UPDATE" => some update
  | "DELETE" => some delete
  | _ => none

/-- What happens to a blocked write. -/
inductive BlockEffect where
  | fail (message : String)
  | drop
  deriving DecidableEq, Repr, Inhabited

structure WriteBlock where
  table : Table
  kind : WriteKind
  effect : BlockEffect
  deriving DecidableEq, Repr, Inhabited

structure Faults where
  blocks : List WriteBlock
  /-- How many conditional writes to a signature's row are lost to other writers. -/
  lostRaces : List (String × Nat)
  deriving DecidableEq, Repr, Inhabited

namespace Faults

def none : Faults := ⟨[], []⟩

def effect? (faults : Faults) (table : Table) (kind : WriteKind) : Option BlockEffect :=
  (faults.blocks.find? fun b => b.table == table && b.kind == kind).map (·.effect)

/-- Whether a write goes through, is dropped, or fails. -/
def allows (faults : Faults) (table : Table) (kind : WriteKind) : Except StorageError Bool :=
  match faults.effect? table kind with
  | some (.fail message) => .error (.ofEngineMessage message)
  | some .drop => .ok false
  | .none => .ok true

def lift (faults : Faults) (table : Table) (kind : WriteKind) : Faults :=
  { faults with blocks := faults.blocks.filter fun b => !(b.table == table && b.kind == kind) }

/-- Put a block up, in place of the one for the same table and kind of write. -/
def block (faults : Faults) (table : Table) (kind : WriteKind) (effect : BlockEffect) : Faults :=
  { faults with blocks := ⟨table, kind, effect⟩ :: (faults.lift table kind).blocks }

/-- Whether a writer loses the race of its given attempt, counted from 0. -/
def losesRace (faults : Faults) (signature : String) (attempt : Nat) : Bool :=
  attempt < (faults.lostRaces.lookup signature).getD 0

end Faults

/-! ## Writing rows

The rows of a table are a list in the order of their insertion. -/

namespace Table

variable {ρ : Type}

/-- Put a row at the end, unless the write is dropped. -/
def append (table : Table) (faults : Faults) (rows : List ρ) (row : ρ) :
    Except StorageError (List ρ) := do
  return if ← faults.allows table .insert then rows ++ [row] else rows

/-- Put rows at the end, unless the writes are dropped. -/
def appendAll (table : Table) (faults : Faults) (rows new : List ρ) :
    Except StorageError (List ρ) := do
  if new.isEmpty then return rows
  return if ← faults.allows table .insert then rows ++ new else rows

/-- Change the rows that fit, and count them. -/
def updateWhere (table : Table) (faults : Faults) (rows : List ρ) (fits : ρ → Bool)
    (change : ρ → ρ) : Except StorageError (List ρ × Nat) := do
  let count := rows.countP fits
  if count = 0 then return (rows, 0)
  else if ← faults.allows table .update then
    return (rows.map fun row => if fits row then change row else row, count)
  else return (rows, 0)

/-- Delete the rows that fit, and count them. -/
def deleteWhere (table : Table) (faults : Faults) (rows : List ρ) (fits : ρ → Bool) :
    Except StorageError (List ρ × Nat) := do
  let count := rows.countP fits
  if count = 0 then return (rows, 0)
  else if ← faults.allows table .delete then return (rows.filter fun row => !fits row, count)
  else return (rows, 0)

/-- Insert a row, or merge it into the row that is there already under the same key. -/
def upsert (table : Table) (faults : Faults) (rows : List ρ) (sameKey : ρ → ρ → Bool)
    (merge : ρ → ρ → ρ) (row : ρ) : Except StorageError (List ρ) := do
  if ← faults.allows table .insert then
    if rows.any (sameKey row) then
      return (← table.updateWhere faults rows (sameKey row) (fun old => merge old row)).1
    else return rows ++ [row]
  else return rows

/-- The engine's words for a key that is there already. -/
def uniqueViolation (table : Table) (columns : List String) : StorageError :=
  .engine ("UNIQUE constraint failed: " ++
    ", ".intercalate (columns.map fun column => table.name ++ "." ++ column))

/-- The engine's words for a value that is missing. NaN cannot be stored. -/
def missingValue (table : Table) (column : String) : StorageError :=
  .engine ("NOT NULL constraint failed: " ++ table.name ++ "." ++ column)

def requireNumber (table : Table) (column : String) (x : Float) : Except StorageError Unit :=
  if x.isNaN then .error (table.missingValue column) else .ok ()

end Table

end HouseStyle
