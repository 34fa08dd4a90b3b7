import HouseStyle.Error.Operation
import HouseStyle.Event
import HouseStyle.Portfolio.Refresh
import HouseStyle.Store.PatternForm

/-!
# Syncing a project

A sync brings a project's occurrences up to what its store holds now. The changes
since the checkpoint are applied version by version, each version in one piece
together with the checkpoint, so that a sync that breaks off goes on later where it
stopped. A rebase takes everything back that a project contributed.
-/

namespace HouseStyle

/-- A change of a store as a sync sees it. -/
inductive StoreChange where
  | retract (patternId : String)
  | upsert (pattern : Pattern)

/-- The changes that led to one version. -/
structure VersionChanges where
  version : Nat
  changes : List StoreChange

/-- A number put into a sorted list, once. -/
def insertNat (n : Nat) : List Nat → List Nat
  | [] => [n]
  | m :: ms => if n < m then n :: m :: ms else if n = m then m :: ms else m :: insertNat n ms

/-- The changes since a version, the oldest version first. In each version patterns are
retracted before others are written. -/
def PatternStore.changesSince (store : PatternStore) (checkpoint : Int) :
    Except StorageError (List VersionChanges) := do
  let tombstones := store.tombstonesSince checkpoint
  let patterns ← (store.patternsSince checkpoint).mapM Pattern.ofRow
  let versions := (tombstones.map (fun row => readWord row.version) ++
    patterns.map (·.version)).foldl (fun sorted n => insertNat n sorted) []
  return versions.map fun version => {
    version
    changes :=
      ((tombstones.filter (readWord ·.version == version)).map fun row =>
        .retract row.patternId) ++
      (patterns.filter (·.version == version)).map .upsert }

inductive SyncStatus where
  | complete
  | upToDate
  deriving DecidableEq, Repr, Inhabited

def SyncStatus.name : SyncStatus → String
  | complete => "complete"
  | upToDate => "up_to_date"

structure SyncResult where
  projectId : String
  added : Nat
  updated : Nat
  removed : Nat
  /-- How many more concepts the store has than at the last sync. -/
  conceptsAdded : Nat
  status : SyncStatus
  checkpoint : Nat
  deriving DecidableEq, Repr, Inhabited

def SyncResult.toJson (r : SyncResult) : Json :=
  .object [
    ("project_id", .text r.projectId),
    ("patterns_added", .ofNat r.added),
    ("patterns_updated", .ofNat r.updated),
    ("patterns_removed", .ofNat r.removed),
    ("concepts_added", .ofNat r.conceptsAdded),
    ("status", .text r.status.name),
    ("checkpoint", .ofNat r.checkpoint),
    ("duration_ms", .ofNat 0)]

/-- How many occurrences were written for the first time, written again, and taken back. -/
structure SyncCounts where
  added : Nat
  updated : Nat
  removed : Nat
  deriving DecidableEq, Repr, Inhabited

namespace SyncCounts

def zero : SyncCounts := ⟨0, 0, 0⟩

def add (a b : SyncCounts) : SyncCounts :=
  ⟨a.added + b.added, a.updated + b.updated, a.removed + b.removed⟩

end SyncCounts

/-- The occurrence row of a pattern. -/
def Pattern.occurrence (pattern : Pattern) (projectId : String) (now : Int) : OccurrenceRow where
  signature := pattern.content.signature
  projectId
  patternId := pattern.id
  frequency := (min pattern.frequency Word.greatest : Nat)
  confidence := pattern.confidence
  languages := (Json.ofTexts pattern.languages).render
  updatedAt := now

namespace Portfolio

/-- Refresh several signatures of which nothing new is known. -/
def refreshAll (portfolio : Portfolio) (attempts : Nat) (now : Int) (signatures : List String) :
    Except StorageError Portfolio :=
  signatures.foldlM (fun portfolio signature => do
    return (← portfolio.refresh signature none attempts now).1) portfolio

def applyChange (portfolio : Portfolio) (projectId : String) (attempts : Nat) (now : Int) :
    StoreChange → Except StorageError (Portfolio × SyncCounts)
  | .retract patternId => do
    let (portfolio, signatures) ← portfolio.deletePatternOccurrences projectId patternId
    let portfolio ← portfolio.refreshAll attempts now signatures
    return (portfolio, ⟨0, 0, if signatures.isEmpty then 0 else 1⟩)
  | .upsert pattern => do
    let (portfolio, existed) ← portfolio.upsertOccurrence (pattern.occurrence projectId now)
    let text := ⟨pattern.category.name, pattern.content.describe⟩
    let (portfolio, _) ← portfolio.refresh pattern.content.signature (some text) attempts now
    return (portfolio, if existed then ⟨0, 1, 0⟩ else ⟨1, 0, 0⟩)

/-- Apply the changes of one version and move the checkpoint to it. -/
def applyVersion (portfolio : Portfolio) (projectId : String) (attempts : Nat) (now : Int)
    (group : VersionChanges) : Except StorageError (Portfolio × SyncCounts) := do
  let (portfolio, counts) ← group.changes.foldlM (fun (portfolio, counts) change => do
    let (portfolio, more) ← portfolio.applyChange projectId attempts now change
    return (portfolio, counts.add more)) (portfolio, .zero)
  return (← portfolio.advanceCheckpoint projectId (storedWord group.version) now, counts)

/-- How far the versions of a sync have been applied. -/
structure SyncProgress where
  portfolio : Portfolio
  checkpoint : Nat
  counts : SyncCounts

/-- Apply version after version, up to the first one that fails. -/
def applyVersions (projectId : String) (attempts : Nat) (now : Int) (progress : SyncProgress) :
    List VersionChanges → SyncProgress × Option StorageError
  | [] => (progress, none)
  | group :: groups =>
    match progress.portfolio.applyVersion projectId attempts now group with
    | .error error => (progress, some error)
    | .ok (portfolio, counts) =>
      applyVersions projectId attempts now
        ⟨portfolio, group.version, progress.counts.add counts⟩ groups

/-- Set the last checkpoint and the statistics of a project. -/
def closeSync (portfolio : Portfolio) (projectId : String) (checkpoint : Nat) (now : Int)
    (store : PatternStore) : Except StorageError Portfolio := do
  let portfolio ← portfolio.advanceCheckpoint projectId (storedWord checkpoint) now
  portfolio.updateStats projectId store.patterns.length store.concepts.length

/-- What came of a sync. -/
structure Synced where
  portfolio : Portfolio
  result : Except SyncError SyncResult
  events : List Event

namespace Synced

def failed (portfolio : Portfolio) (error : SyncError) : Synced := ⟨portfolio, .error error, []⟩

/-- How many concepts a store has more than its project counted at the last sync. The difference is
a signed 64-bit word, and none below zero is told. -/
def conceptGain (project : ProjectRow) (store : PatternStore) : Nat :=
  (Int.bmod ((store.concepts.length : Int) - project.conceptCount) Word.bound).toNat

/-- A sync that ends, after all versions were applied. -/
def complete (project : ProjectRow) (checkpoint : Nat) (store : PatternStore)
    (status : SyncStatus) (reached : Nat) (portfolio : Portfolio) (counts : SyncCounts) : Synced :=
  let result : SyncResult := {
    projectId := project.id
    added := counts.added
    updated := counts.updated
    removed := counts.removed
    conceptsAdded := conceptGain project store
    status
    checkpoint := max reached checkpoint }
  ⟨portfolio, .ok result,
    [.syncComplete project.id counts.added counts.updated counts.removed result.checkpoint]⟩

end Synced

/-- The register's row of an active project. -/
def activeProject (portfolio : Portfolio) (projectId : String) : Except SyncError ProjectRow :=
  match portfolio.getProject? projectId with
  | none => .error (.unknownProject projectId)
  | some row => if row.isActive then .ok row else .error (.inactive projectId)

/-- Bring in what a store has changed since the checkpoint of its project. -/
def syncFrom (portfolio : Portfolio) (attempts : Nat) (now : Int) (project : ProjectRow)
    (store : PatternStore) : Synced :=
  let checkpoint := readWord project.lastSyncedVersion
  let version := readWord store.version
  match store.changesSince checkpoint with
  | .error error => .failed portfolio (.storage error)
  | .ok groups =>
    if version < checkpoint then
      let error := SyncError.storeBehind project.id version checkpoint
      ⟨portfolio, .error error, [.failure error.message error.code]⟩
    else
      match applyVersions project.id attempts now ⟨portfolio, checkpoint, .zero⟩ groups with
      | (progress, some error) =>
        ⟨progress.portfolio, .error (.interrupted project.id progress.checkpoint error),
          [.failure ("sync of " ++ project.id ++ " interrupted: " ++ error.message) error.code]⟩
      | (progress, none) =>
        let reached := max version progress.checkpoint
        match progress.portfolio.closeSync project.id reached now store with
        | .error error => .failed progress.portfolio (.storage error)
        | .ok portfolio =>
          let status := if groups.isEmpty && version ≤ checkpoint then SyncStatus.upToDate
            else .complete
          .complete project checkpoint store status reached portfolio progress.counts

/-- Sync an active project with its store. -/
def sync (portfolio : Portfolio) (attempts : Nat) (now : Int) (projectId : String)
    (store : PatternStore) : Synced :=
  match portfolio.activeProject projectId with
  | .error error => .failed portfolio error
  | .ok project => portfolio.syncFrom attempts now project store

/-- Take back all that a project contributed, move its checkpoint to 0, and count the
signatures that it had a share in. -/
def rebase (portfolio : Portfolio) (attempts : Nat) (now : Int) (projectId : String) :
    Except SyncError (Portfolio × Nat) :=
  if (portfolio.getProject? projectId).isNone then .error (.unknownProject projectId)
  else
    let retracted := do
      let (portfolio, signatures) ← portfolio.deleteProjectOccurrences projectId
      let portfolio ← portfolio.refreshAll attempts now signatures
      return (← portfolio.resetCheckpoint projectId now, signatures.length)
    retracted.mapError .storage

end Portfolio

end HouseStyle
