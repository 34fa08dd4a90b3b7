import HouseStyle.Change
import HouseStyle.Learning.Mode
import HouseStyle.Store.PatternStore
import HouseStyle.Word

/-!
# Learning deltas

What one merge did to a store: how many concepts and patterns it added, changed and
removed, and which version it led to. A merge that changed nothing leads to the
version it started from and is not logged.
-/

namespace HouseStyle

structure LearningDelta where
  id : String
  trigger : Trigger
  mode : LearningMode
  revision : Option String
  filesTouched : Nat
  conceptsAdded : Nat
  conceptsModified : Nat
  conceptsRemoved : Nat
  patternsAdded : Nat
  patternsModified : Nat
  patternsRemoved : Nat
  durationMs : Nat
  appliedAt : Int
  precedingVersion : Nat
  resultingVersion : Nat
  partialDegradation : Bool
  degradedFiles : List String
  deriving DecidableEq, Repr, Inhabited

/-- A 64-bit word as the database keeps it: the upper half of the words is negative. -/
def storedWord (n : Nat) : Int := Int.bmod n Word.bound

/-- A number read back from the database as a 64-bit word. Negative ones are read as 0. -/
def readWord (n : Int) : Nat := n.toNat

/-- A number read back as a 32-bit word. -/
def readWord32 (n : Int) : Nat := min n.toNat (Word.bound32 - 1)

/-- The texts in a stored JSON list. -/
def readTexts (entity source : String) : Except StorageError (List String) :=
  match (Json.parse? source).bind (Json.asList? Json.asText?) with
  | some texts => .ok texts
  | none => .error (.serialization entity none)

namespace LearningDelta

/-- Whether the merge left the store as it was. -/
def isNoop (delta : LearningDelta) : Bool := delta.resultingVersion == delta.precedingVersion

def toJson (d : LearningDelta) : Json :=
  .object [
    ("id", .text d.id),
    ("trigger", .text d.trigger.name),
    ("mode", .text d.mode.name),
    ("revision", .ofOption .text d.revision),
    ("files_touched", .ofNat d.filesTouched),
    ("concepts_added", .ofNat d.conceptsAdded),
    ("concepts_modified", .ofNat d.conceptsModified),
    ("concepts_removed", .ofNat d.conceptsRemoved),
    ("patterns_added", .ofNat d.patternsAdded),
    ("patterns_modified", .ofNat d.patternsModified),
    ("patterns_removed", .ofNat d.patternsRemoved),
    ("duration_ms", .ofNat d.durationMs),
    ("applied_at", .int d.appliedAt),
    ("preceding_version", .ofNat d.precedingVersion),
    ("resulting_version", .ofNat d.resultingVersion),
    ("partial_degradation", .bool d.partialDegradation),
    ("degraded_files", .ofTexts d.degradedFiles)]

def toRow (d : LearningDelta) : DeltaRow where
  id := d.id
  trigger := d.trigger.name
  mode := d.mode.name
  revision := d.revision
  filesTouched := d.filesTouched
  conceptsAdded := d.conceptsAdded
  conceptsModified := d.conceptsModified
  conceptsRemoved := d.conceptsRemoved
  patternsAdded := d.patternsAdded
  patternsModified := d.patternsModified
  patternsRemoved := d.patternsRemoved
  durationMs := storedWord d.durationMs
  appliedAt := d.appliedAt
  precedingVersion := storedWord d.precedingVersion
  resultingVersion := storedWord d.resultingVersion
  partialDegradation := d.partialDegradation
  degradedFiles := (Json.ofTexts d.degradedFiles).render

def ofRow (row : DeltaRow) : Except StorageError LearningDelta := do
  let some trigger := Trigger.ofName? row.trigger
    | throw (.serialization "delta trigger" (some ("unknown trigger '" ++ row.trigger ++ "'")))
  let some mode := LearningMode.ofName? row.mode
    | throw (.serialization "delta mode" (some ("unknown mode '" ++ row.mode ++ "'")))
  let degradedFiles ← readTexts "degraded files" row.degradedFiles
  return {
    id := row.id
    trigger
    mode
    revision := row.revision
    filesTouched := readWord32 row.filesTouched
    conceptsAdded := readWord32 row.conceptsAdded
    conceptsModified := readWord32 row.conceptsModified
    conceptsRemoved := readWord32 row.conceptsRemoved
    patternsAdded := readWord32 row.patternsAdded
    patternsModified := readWord32 row.patternsModified
    patternsRemoved := readWord32 row.patternsRemoved
    durationMs := readWord row.durationMs
    appliedAt := row.appliedAt
    precedingVersion := readWord row.precedingVersion
    resultingVersion := readWord row.resultingVersion
    partialDegradation := row.partialDegradation
    degradedFiles }

end LearningDelta

end HouseStyle
