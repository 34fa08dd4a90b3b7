import HouseStyle.Keyed
import HouseStyle.Store.PatternForm

/-!
# Replaying the log

Every merge logs what it did to each pattern. Doing it all again from nothing gives
the stored patterns, and `verifyReplay` checks that it does.
-/

namespace HouseStyle

/-- Patterns under the ids that the log calls them by. -/
abbrev ReplayTable := List (String × Pattern)

namespace ReplayTable

/-- Do one logged operation again. -/
def apply (table : ReplayTable) (row : OperationRow) : Except StorageError ReplayTable :=
  if row.op = PatternStore.upsertName then
    match row.payload with
    | none =>
      .error (.serialization "delta operation" (some ("upsert of " ++ row.patternId ++
        " at version " ++ toString row.resultingVersion ++ " has no payload")))
    | some payload =>
      match (Json.parse? payload).bind Pattern.ofJson? with
      | some pattern => .ok (putKeyed row.patternId pattern table)
      | none => .error (.serialization "delta operation payload" none)
  else if row.op = PatternStore.removeName then .ok (eraseKeyed row.patternId table)
  else .error (.serialization "delta operation" (some ("unknown operation '" ++ row.op ++ "'")))

/-- The patterns by their ids. -/
def patterns (table : ReplayTable) : List Pattern :=
  (table.mergeSort fun a b => a.1 ≤ b.1).map (·.2)

end ReplayTable

namespace PatternStore

/-- The patterns that the log leads to. -/
def replay (store : PatternStore) : Except StorageError (List Pattern) := do
  return (← store.listOperations.foldlM ReplayTable.apply []).patterns

/-- The stored patterns by their ids. -/
def loadPatterns (store : PatternStore) : Except StorageError (List Pattern) :=
  store.listPatterns.mapM Pattern.ofRow

/-- Whether two lists hold the same patterns in the same order. -/
def samePatterns : List Pattern → List Pattern → Bool
  | [], [] => true
  | a :: as, b :: bs => a.same b && samePatterns as bs
  | _, _ => false

/-- Whether the log leads to exactly the stored patterns. -/
def verifyReplay (store : PatternStore) : Except StorageError Bool := do
  let replayed ← store.replay
  return samePatterns replayed (← store.loadPatterns)

end PatternStore

end HouseStyle
