import HouseStyle.Learning.ConceptDiff
import HouseStyle.Learning.Steps
import HouseStyle.Pattern.Confidence
import HouseStyle.Store.PatternForm
import HouseStyle.Text.Sorted

/-!
# The merge

A merge carries out the steps of a batch on a store and then computes every pattern
anew whose evidence they touched. It moves the store's version on by one and logs what
happened, unless nothing did. A failure anywhere leaves the store as it was.
-/

namespace HouseStyle

/-- What learning needs to know of the settings. -/
structure LearningPolicy where
  /-- A batch with more than this share of the tracked files is learned in full. -/
  threshold : Float
  /-- The most examples kept of a pattern. -/
  examples : Nat
  /-- The most changes in a batch. -/
  batchFiles : Nat
  confidence : ConfidencePolicy

/-- The most contexts kept of a pattern. -/
def contextLimit : Nat := 32

/-- The sum of two 64-bit words. -/
def addWords (a b : Nat) : Nat := (a + b) % Word.bound

/-! ## What a merge does to patterns -/

inductive PatternChange where
  | created (pattern : Pattern)
  | updated (pattern : Pattern)
  | removed (id : String)

namespace PatternChange

def created? : PatternChange → Option Pattern
  | created pattern => some pattern
  | updated _ | removed _ => none

def updated? : PatternChange → Option Pattern
  | updated pattern => some pattern
  | created _ | removed _ => none

def removed? : PatternChange → Option String
  | removed id => some id
  | created _ | updated _ => none

/-- The logged form of the change with a number in the merge to a version. -/
def toRow (version seq : Nat) : PatternChange → OperationRow
  | created pattern | updated pattern =>
    ⟨storedWord version, seq, PatternStore.upsertName, pattern.id, some pattern.toJson.render⟩
  | removed id => ⟨storedWord version, seq, PatternStore.removeName, id, none⟩

end PatternChange

namespace PatternStore

/-- Write changes to the log, numbered from `seq` on. -/
def logChanges (store : PatternStore) (version seq : Nat) :
    List PatternChange → Except StorageError PatternStore
  | [] => .ok store
  | change :: changes => do
    logChanges (← store.insertOperation (change.toRow version seq)) version (seq + 1) changes

/-- The examples of a pattern: the first places that show it. -/
def readExamples (store : PatternStore) (id : String) (limit : Nat) : List PatternExample :=
  (store.examplesFor id limit).map fun row => ⟨row.filePath, readWord32 row.line, row.snippet⟩

/-- The directories and language tags of files. -/
def contextsOfFiles (files : List (String × Option String)) : List String :=
  files.flatMap fun (path, language) =>
    (Path.parent? path).toList ++ language.toList.map (Pattern.languageMark ++ ·)

/-- The contexts of a pattern: where its evidence lies, and those that it carries along. -/
def contextsFor (store : PatternStore) (id : String) (carried : List String) : List String :=
  (sortedTexts (carried ++ contextsOfFiles (store.filesForPattern id))).take contextLimit

/-- The stored pattern with an id. -/
def readPattern? (store : PatternStore) (id : String) : Except StorageError (Option Pattern) :=
  (store.getPattern? id).mapM Pattern.ofRow

/-- Delete a pattern and leave a tombstone. -/
def buryPattern (store : PatternStore) (pattern : Pattern) (version : Nat) (now : Int) :
    Except StorageError PatternStore := do
  let (store, _) ← store.deletePattern pattern.id
  store.insertTombstone
    ⟨pattern.id, storedWord version, pattern.category.name, pattern.content.toJson.render, now⟩

/-- Store a pattern, unless all that is derived of it is stored already. -/
def putPattern (store : PatternStore) (existing : Option Pattern) (candidate : Pattern) :
    Except StorageError (PatternStore × Option PatternChange) :=
  match existing with
  | some previous =>
    if previous.sameDerived candidate then .ok (store, none)
    else return (← store.upsertPattern candidate.toRow, some (.updated candidate))
  | none => return (← store.upsertPattern candidate.toRow, some (.created candidate))

/-- Compute a pattern anew from its evidence. Without any evidence and baseline it is
removed. `content` is what the batch says of a pattern that is not stored yet, and `gained`
whether the batch has seen it. -/
def recomputePattern (store : PatternStore) (policy : LearningPolicy) (version : Nat) (now : Int)
    (content : Option PatternContent) (gained : Bool) (id : String) :
    Except StorageError (PatternStore × Option PatternChange) := do
  let existing ← store.readPattern? id
  let baseline := (existing.map (·.baseline)).getD 0
  let frequency := addWords baseline (store.countForPattern id)
  if frequency = 0 then
    match existing with
    | some pattern =>
      return (← store.buryPattern pattern version now, some (.removed pattern.id))
    | none => return (store, none)
  else
    match (existing.map (·.content)).or content with
    | none => return (store, none)
    | some content =>
      let lastSeen := match existing with
        | some previous => if gained then now else previous.lastSeen
        | none => now
      let computed := policy.confidence.score frequency lastSeen now
      let confidence := match existing with
        | some previous =>
          if previous.frequency ≤ frequency then
            ConfidencePolicy.corroborate previous.confidence computed
          else computed
        | none => computed
      let carried := match existing with
        | some previous => if 0 < previous.baseline then previous.contexts else []
        | none => []
      store.putPattern existing {
        id
        category := content.category
        content
        frequency
        baseline
        confidence
        contexts := store.contextsFor id carried
        examples := store.readExamples id policy.examples
        version
        createdAt := (existing.map (·.createdAt)).getD now
        lastSeen }

/-! ## The steps -/

/-- Delete the concepts and evidence of a file. -/
def clearFile (store : PatternStore) (path : String) : Except StorageError PatternStore := do
  let (store, _) ← store.deleteFileConcepts path
  let (store, _) ← store.deleteFileEvidence path
  return store

/-- The ids of the patterns that a file shows. -/
def shownBy (store : PatternStore) (path : String) : List String :=
  (store.evidenceForFile path).map (·.patternId)

end PatternStore

def Concept.toRow (path : String) (concept : Concept) : ConceptRow :=
  ⟨path, concept.name, concept.kind.name, concept.confidence, concept.lineStart, concept.lineEnd⟩

def Observation.toRow (path : String) (observation : Observation) : EvidenceRow :=
  ⟨observation.content.id, path, observation.line, observation.snippet⟩

/-- A store in the middle of a merge. -/
structure MergeState where
  store : PatternStore
  /-- Patterns whose evidence changed. -/
  touched : List String
  /-- Patterns that were seen in the batch, with their contents. -/
  gained : List (String × PatternContent)
  counts : ConceptCounts
  filesTouched : Nat

namespace MergeState

def start (store : PatternStore) : MergeState := ⟨store, [], [], .zero, 0⟩

/-- Replace what is stored of a file by what was found in it. -/
def examine (state : MergeState) (now : Int) (path : String) (revision : Option String)
    (analysis : Analysis) : Except StorageError MergeState := do
  let old := state.store.conceptsForFile path
  let shown := state.store.shownBy path
  let store ← state.store.clearFile path
  let store ← store.insertConcepts (analysis.concepts.map (Concept.toRow path))
  let seen := analysis.observations.map fun o => (o.content.id, o.content)
  let store ← store.insertEvidence (analysis.observations.map (Observation.toRow path))
  let store ← store.upsertFile {
    filePath := path
    language := analysis.language.map (·.tag)
    contentHash := analysis.contentHash
    degraded := analysis.degraded
    analyzedAt := now
    revision }
  return {
    store
    touched := state.touched ++ shown ++ seen.map (·.1)
    gained := state.gained ++ seen
    counts := state.counts.add
      (diffConcepts (old.map .ofRow) (analysis.concepts.map .ofConcept))
    filesTouched := state.filesTouched + 1 }

/-- Forget a file. -/
def delete (state : MergeState) (path : String) : Except StorageError MergeState := do
  let old := state.store.conceptsForFile path
  let shown := state.store.shownBy path
  let (store, rows) ← state.store.deleteFile path
  let store ← store.clearFile path
  let wasKnown := 0 < rows || !old.isEmpty
  return { state with
    store
    touched := state.touched ++ shown
    counts := state.counts.add ⟨0, 0, old.length⟩
    filesTouched := state.filesTouched + if wasKnown then 1 else 0 }

/-- Move what is stored of a file to another path, over whatever is stored there. -/
def rename (state : MergeState) (source target : String) (revision : Option String) :
    Except StorageError MergeState := do
  let old := state.store.conceptsForFile target
  let shown := state.store.shownBy target
  let store ← state.store.clearFile target
  let (store, _) ← store.deleteFile target
  let moved := store.shownBy source
  let (store, _) ← store.rekeyConcepts source target
  let (store, _) ← store.rekeyEvidence source target
  let (store, _) ← store.rekeyFile source target
  let store ← match store.getFile? target with
    | some file => store.upsertFile { file with revision := revision.or file.revision }
    | none => pure store
  return { state with
    store
    touched := state.touched ++ shown ++ moved
    counts := state.counts.add ⟨0, 0, old.length⟩
    filesTouched := state.filesTouched + 1 }

def step (now : Int) (state : MergeState) : MergeStep → Except StorageError MergeState
  | .examine path revision (.analyzed analysis) => state.examine now path revision analysis
  | .examine _ _ .unchanged | .examine _ _ .failed => .ok state
  | .delete path => state.delete path
  | .rename source target revision => state.rename source target revision

/-- The patterns to compute anew, sorted. In full mode these are all. -/
def toRecompute (state : MergeState) (mode : LearningMode) : List String :=
  sortedTexts (state.touched ++
    match mode with
    | .full => state.store.patterns.map (·.patternId)
    | .incremental | .skip => [])

/-- Compute patterns anew one after another, and collect what happened to them. -/
def recompute (state : MergeState) (policy : LearningPolicy) (mode : LearningMode)
    (version : Nat) (now : Int) : Except StorageError (PatternStore × List PatternChange) :=
  (state.toRecompute mode).foldlM (fun (store, changes) id => do
    let content := state.gained.lookup id
    let (store, change) ← store.recomputePattern policy version now content content.isSome id
    return (store, changes ++ change.toList)) (state.store, [])

end MergeState

/-! ## Deltas and what they announce -/

namespace LearningDelta

/-- A delta is called by the version that it leads to. -/
def idFor (version : Nat) : String := "delta-" ++ toString version

/-- The delta of a call that does nothing. -/
def noop (origin : Origin) (version : Nat) (now : Int) (degradedFiles : List String) :
    LearningDelta where
  id := idFor version
  trigger := origin.trigger
  mode := .skip
  revision := origin.revision
  filesTouched := 0
  conceptsAdded := 0
  conceptsModified := 0
  conceptsRemoved := 0
  patternsAdded := 0
  patternsModified := 0
  patternsRemoved := 0
  durationMs := 0
  appliedAt := now
  precedingVersion := version
  resultingVersion := version
  partialDegradation := !degradedFiles.isEmpty
  degradedFiles

end LearningDelta

/-- A merge that went through. -/
structure Merged where
  store : PatternStore
  delta : LearningDelta
  changes : List PatternChange

namespace PatternStore

/-- Move the version on and log a delta with its changes. A delta that neither touches a
file nor changes a pattern is not logged. -/
def commit (store : PatternStore) (delta : LearningDelta) (changes : List PatternChange) :
    Except StorageError Merged := do
  let preceding := delta.precedingVersion
  let next := preceding + 1
  if delta.filesTouched = 0 ∧ changes.isEmpty then
    return ⟨store, { delta with mode := .skip }, []⟩
  else
    let store ← store.advanceVersion (storedWord preceding) (storedWord next)
    let delta := {
      delta with
      id := LearningDelta.idFor next
      resultingVersion := next
      patternsAdded := (changes.filterMap (·.created?)).length
      patternsModified := (changes.filterMap (·.updated?)).length
      patternsRemoved := (changes.filterMap (·.removed?)).length }
    let store ← store.insertDelta delta.toRow
    let store ← store.logChanges next 0 changes
    return ⟨store, delta, changes⟩

/-- Check that the store is still at a version. -/
def requireVersion (store : PatternStore) (expected : Nat) : Except StorageError Unit :=
  let found := readWord store.version
  if found = expected then .ok () else .error (.versionConflict expected found)

/-- Carry out the steps of a batch that was read at version `preceding`. -/
def merge (store : PatternStore) (policy : LearningPolicy) (origin : Origin) (mode : LearningMode)
    (preceding : Nat) (now : Int) (steps : List MergeStep) : Except StorageError Merged := do
  store.requireVersion preceding
  let state ← steps.foldlM (MergeState.step now) (.start store)
  let (merged, changes) ← state.recompute policy mode (preceding + 1) now
  let lastRevision := (steps.filterMap (·.revision?)).getLast?
  merged.commit
    { LearningDelta.noop origin preceding now (steps.filterMap (·.degradedPath?)) with
      mode
      revision := origin.revision.or lastRevision
      filesTouched := state.filesTouched
      conceptsAdded := state.counts.added
      conceptsModified := state.counts.modified
      conceptsRemoved := state.counts.removed } changes

end PatternStore

end HouseStyle
