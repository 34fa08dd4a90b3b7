import HouseStyle.Decimal.Parts
import HouseStyle.Store.Fault
import HouseStyle.Store.RowNumbers
import HouseStyle.Store.Rows
import HouseStyle.Word

/-!
# The pattern store

Everything a project has learned: its patterns, the evidence and concepts they rest
on, the tracked files, the log of merges, and what checks left behind. A write gives
the store after it or an error; after an error the caller goes on with the store it
had. Reads give rows in a fixed order.
-/

namespace HouseStyle

structure PatternStore where
  version : Int
  patterns : List PatternRow
  concepts : List ConceptRow
  evidence : List EvidenceRow
  files : List TrackedFile
  deltas : List DeltaRow
  operations : List OperationRow
  tombstones : List TombstoneRow
  exceptions : List ExceptionRow
  violations : List ViolationRow
  faults : Faults
  numbers : RowNumbers

namespace PatternStore

def empty : PatternStore := ⟨0, [], [], [], [], [], [], [], [], [], .none, .fresh⟩

/-- The store as someone finds it who opens it again. -/
def reopened (store : PatternStore) : PatternStore :=
  { store with numbers := store.numbers.reopened }

/-- The store after a failed transaction: as it was before, but the number of the row
inserted last is remembered. -/
def rolledBack (before after : PatternStore) : PatternStore :=
  { before with numbers := { before.numbers with last := after.numbers.last } }

/-! ## The version -/

/-- Move the version on by one, as a signed 64-bit word. Fails when it is no longer the expected
one. -/
def advanceVersion (store : PatternStore) (expected next : Int) :
    Except StorageError PatternStore := do
  if next ≠ Int.bmod (expected + 1) Word.bound then
    throw (.versionConflict (Int.toNat ((expected + 1) % Word.bound)) next.toNat)
  let conflict := StorageError.versionConflict expected.toNat store.version.toNat
  if store.version ≠ expected then throw conflict
  if ← store.faults.allows .storeMeta .update then return { store with version := next }
  else throw conflict

/-- Put any version in place of the current one. -/
def setVersion (store : PatternStore) (version : Int) : Except StorageError PatternStore := do
  return if ← store.faults.allows .storeMeta .update then { store with version } else store

/-! ## Patterns -/

/-- What an upsert leaves of the row that was there: its type, slot, content and age. -/
def mergePattern (old new : PatternRow) : PatternRow :=
  { old with
    frequency := new.frequency
    baseline := new.baseline
    confidence := new.confidence
    contexts := new.contexts
    examples := new.examples
    version := new.version
    lastSeen := new.lastSeen }

def upsertPattern (store : PatternStore) (row : PatternRow) : Except StorageError PatternStore := do
  let allowed ← store.faults.allows .patterns .insert
  if allowed then Table.patterns.requireNumber "confidence" row.confidence
  let row := { row with confidence := Decimal.unsignedZero row.confidence }
  let patterns ← Table.patterns.upsert store.faults store.patterns
    (fun a b => a.patternId == b.patternId) mergePattern row
  let numbers :=
    if patterns.length = store.patterns.length then store.numbers else store.numbers.addPattern
  return { store with patterns, numbers }

def deletePattern (store : PatternStore) (id : String) :
    Except StorageError (PatternStore × Bool) := do
  let (patterns, count) ←
    Table.patterns.deleteWhere store.faults store.patterns (·.patternId == id)
  if count = 0 then return (store, false)
  let left := RowNumbers.keep (·.patternId == id) store.patterns store.numbers.patterns
  return ({ store with patterns, numbers := { store.numbers with patterns := left } }, true)

/-- Put another content into a pattern's row, and count the rows. -/
def setContent (store : PatternStore) (id content : String) :
    Except StorageError (PatternStore × Nat) := do
  let (patterns, count) ←
    Table.patterns.updateWhere store.faults store.patterns (·.patternId == id)
      fun row => { row with content }
  return ({ store with patterns }, count)

def getPattern? (store : PatternStore) (id : String) : Option PatternRow :=
  store.patterns.find? (·.patternId == id)

/-- All patterns by their ids. -/
def listPatterns (store : PatternStore) : List PatternRow :=
  store.patterns.mergeSort fun a b => a.patternId ≤ b.patternId

/-- The more frequent first, of these the surer, of these the one with the smaller id. -/
def leads (a b : PatternRow) : Bool :=
  b.frequency < a.frequency ||
    (a.frequency == b.frequency &&
      (Decimal.rank b.confidence < Decimal.rank a.confidence ||
        (Decimal.rank a.confidence == Decimal.rank b.confidence && a.patternId ≤ b.patternId)))

def patternsInSlot (store : PatternStore) (slot : String) : List PatternRow :=
  (store.patterns.filter (·.slot == slot)).mergeSort leads

/-- Patterns changed after a version, the oldest change first. -/
def patternsSince (store : PatternStore) (version : Int) : List PatternRow :=
  (store.patterns.filter fun row => version < row.version).mergeSort fun a b =>
    a.version < b.version || (a.version == b.version && a.patternId ≤ b.patternId)

/-! ## Concepts -/

/-- Insert concepts one after the other, up to the first that cannot be stored. Those
before it are in the store also when there is such a one. -/
def takeConcepts (store : PatternStore) (rows : List ConceptRow) :
    Except StorageError Unit × PatternStore :=
  match store.faults.allows .concepts .insert with
  | .error error => (if rows.isEmpty then .ok () else .error error, store)
  | .ok false => (.ok (), store)
  | .ok true =>
    let sound := rows.takeWhile fun row => !row.confidence.isNaN
    let stored := sound.map fun row =>
      { row with confidence := Decimal.unsignedZero row.confidence }
    let taken := { store with
      concepts := store.concepts ++ stored
      numbers := store.numbers.add .concepts stored.length }
    if sound.length = rows.length then (.ok (), taken)
    else (.error (Table.concepts.missingValue "confidence"), taken)

/-- Insert concepts, all of them or none. -/
def insertConcepts (store : PatternStore) (rows : List ConceptRow) :
    Except StorageError PatternStore :=
  let (result, taken) := store.takeConcepts rows
  result.map fun _ => taken

/-- By the first line, then the name, then the kind. -/
def conceptBefore (a b : ConceptRow) : Bool :=
  a.lineStart < b.lineStart ||
    (a.lineStart == b.lineStart &&
      (a.name < b.name || (a.name == b.name && a.kind ≤ b.kind)))

def conceptsForFile (store : PatternStore) (path : String) : List ConceptRow :=
  (store.concepts.filter (·.filePath == path)).mergeSort conceptBefore

def deleteFileConcepts (store : PatternStore) (path : String) :
    Except StorageError (PatternStore × Nat) := do
  let (concepts, count) ←
    Table.concepts.deleteWhere store.faults store.concepts (·.filePath == path)
  return ({ store with concepts }, count)

/-- Give a file's concepts to another path. -/
def rekeyConcepts (store : PatternStore) (source target : String) :
    Except StorageError (PatternStore × Nat) := do
  let (concepts, count) ←
    Table.concepts.updateWhere store.faults store.concepts (·.filePath == source)
      fun row => { row with filePath := target }
  return ({ store with concepts }, count)

/-! ## Evidence -/

def insertEvidence (store : PatternStore) (rows : List EvidenceRow) :
    Except StorageError PatternStore := do
  let evidence ← Table.evidence.appendAll store.faults store.evidence rows
  let added := evidence.length - store.evidence.length
  return { store with evidence, numbers := store.numbers.add .evidence added }

def evidenceForFile (store : PatternStore) (path : String) : List EvidenceRow :=
  (store.evidence.filter (·.filePath == path)).mergeSort fun a b =>
    a.patternId < b.patternId ||
      (a.patternId == b.patternId &&
        (a.line < b.line || (a.line == b.line && a.snippet ≤ b.snippet)))

def deleteFileEvidence (store : PatternStore) (path : String) :
    Except StorageError (PatternStore × Nat) := do
  let (evidence, count) ←
    Table.evidence.deleteWhere store.faults store.evidence (·.filePath == path)
  return ({ store with evidence }, count)

/-- Give a file's evidence to another path. -/
def rekeyEvidence (store : PatternStore) (source target : String) :
    Except StorageError (PatternStore × Nat) := do
  let (evidence, count) ←
    Table.evidence.updateWhere store.faults store.evidence (·.filePath == source)
      fun row => { row with filePath := target }
  return ({ store with evidence }, count)

def evidenceForPattern (store : PatternStore) (id : String) : List EvidenceRow :=
  store.evidence.filter (·.patternId == id)

def countForPattern (store : PatternStore) (id : String) : Nat :=
  store.evidence.countP (·.patternId == id)

/-- By the path, then the line, then the snippet. -/
def evidenceBefore (a b : EvidenceRow) : Bool :=
  a.filePath < b.filePath ||
    (a.filePath == b.filePath &&
      (a.line < b.line || (a.line == b.line && a.snippet ≤ b.snippet)))

def examplesFor (store : PatternStore) (id : String) (limit : Nat) : List EvidenceRow :=
  takeLimit limit ((store.evidenceForPattern id).mergeSort evidenceBefore)

/-! ## Tracked files -/

def getFile? (store : PatternStore) (path : String) : Option TrackedFile :=
  store.files.find? (·.filePath == path)

/-- The files that show a pattern, each once, with their languages. -/
def filesForPattern (store : PatternStore) (id : String) : List (String × Option String) :=
  let paths := ((store.evidenceForPattern id).map (·.filePath)).eraseDups
  (paths.mergeSort fun a b => a ≤ b).map fun path =>
    (path, (store.getFile? path).bind (·.language))

def upsertFile (store : PatternStore) (row : TrackedFile) : Except StorageError PatternStore := do
  let files ← Table.trackedFiles.upsert store.faults store.files
    (fun a b => a.filePath == b.filePath) (fun _ new => new) row
  let numbers :=
    if files.length = store.files.length then store.numbers else store.numbers.addFile
  return { store with files, numbers }

def deleteFile (store : PatternStore) (path : String) :
    Except StorageError (PatternStore × Nat) := do
  let (files, count) ←
    Table.trackedFiles.deleteWhere store.faults store.files (·.filePath == path)
  if count = 0 then return (store, 0)
  let left := RowNumbers.keep (·.filePath == path) store.files store.numbers.files
  return ({ store with files, numbers := { store.numbers with files := left } }, count)

/-- Move a file's row to another path, where there must be none. -/
def rekeyFile (store : PatternStore) (source target : String) :
    Except StorageError (PatternStore × Nat) := do
  let (files, count) ←
    Table.trackedFiles.updateWhere store.faults store.files (·.filePath == source)
      fun row => { row with filePath := target }
  if count ≠ 0 ∧ source ≠ target ∧ (store.getFile? target).isSome then
    throw (Table.trackedFiles.uniqueViolation ["file_path"])
  return ({ store with files }, count)

/-! ## The log -/

def insertDelta (store : PatternStore) (row : DeltaRow) : Except StorageError PatternStore := do
  if ← store.faults.allows .learningDeltas .insert then
    if store.deltas.any (·.resultingVersion == row.resultingVersion) then
      throw (Table.learningDeltas.uniqueViolation ["resulting_version"])
    if store.deltas.any (·.id == row.id) then
      throw (Table.learningDeltas.uniqueViolation ["id"])
    return { store with
      deltas := store.deltas ++ [row], numbers := store.numbers.add .learningDeltas 1 }
  else return store

/-- All merges by the versions they led to. -/
def listDeltas (store : PatternStore) : List DeltaRow :=
  store.deltas.mergeSort fun a b => a.resultingVersion ≤ b.resultingVersion

def latestDelta? (store : PatternStore) : Option DeltaRow := store.listDeltas.getLast?

def upsertName : String := "upsert"

def removeName : String := "remove"

def insertOperation (store : PatternStore) (row : OperationRow) :
    Except StorageError PatternStore := do
  if ← store.faults.allows .deltaOperations .insert then
    if row.op ≠ upsertName ∧ row.op ≠ removeName then
      throw (.engine "CHECK constraint failed: op IN ('upsert', 'remove')")
    if store.operations.any fun r =>
        r.resultingVersion == row.resultingVersion && r.seq == row.seq then
      throw (Table.deltaOperations.uniqueViolation ["resulting_version", "seq"])
    return { store with
      operations := store.operations ++ [row], numbers := store.numbers.add .deltaOperations 1 }
  else return store

/-- All operations in the order in which they were made. -/
def listOperations (store : PatternStore) : List OperationRow :=
  store.operations.mergeSort fun a b =>
    a.resultingVersion < b.resultingVersion ||
      (a.resultingVersion == b.resultingVersion && a.seq ≤ b.seq)

/-- Add a tombstone, in place of the one for the same pattern and version. -/
def insertTombstone (store : PatternStore) (row : TombstoneRow) :
    Except StorageError PatternStore := do
  if ← store.faults.allows .tombstones .insert then
    let others := store.tombstones.filter fun r =>
      !(r.patternId == row.patternId && r.version == row.version)
    return { store with
      tombstones := others ++ [row], numbers := store.numbers.add .tombstones 1 }
  else return store

/-- Tombstones left after a version, the oldest first. -/
def tombstonesSince (store : PatternStore) (version : Int) : List TombstoneRow :=
  (store.tombstones.filter fun row => version < row.version).mergeSort fun a b =>
    a.version < b.version || (a.version == b.version && a.patternId ≤ b.patternId)

/-! ## Exceptions and violations -/

/-- Append an exception, and give the number of the row inserted last. When the write is
dropped, that is a row of before. -/
def insertException (store : PatternStore) (patternId scope reason : String) (createdAt : Int) :
    Except StorageError (PatternStore × Int) := do
  let id := store.exceptions.length + 1
  let exceptions ← Table.exceptions.append store.faults store.exceptions
    ⟨id, patternId, scope, reason, createdAt⟩
  let added := exceptions.length - store.exceptions.length
  let numbers := store.numbers.add .exceptions added
  return ({ store with exceptions, numbers }, numbers.last)

def exceptionsForPattern (store : PatternStore) (id : String) : List ExceptionRow :=
  store.exceptions.filter (·.patternId == id)

def insertViolations (store : PatternStore) (rows : List ViolationRow) :
    Except StorageError PatternStore := do
  let violations ← Table.violations.appendAll store.faults store.violations rows
  let added := violations.length - store.violations.length
  return { store with violations, numbers := store.numbers.add .violations added }

/-- The violations found in a file, the latest first. -/
def violationsForFile (store : PatternStore) (path : String) : List ViolationRow :=
  (store.violations.filter (·.filePath == path)).reverse.mergeSort fun a b =>
    b.checkedAt ≤ a.checkedAt

end PatternStore

end HouseStyle
