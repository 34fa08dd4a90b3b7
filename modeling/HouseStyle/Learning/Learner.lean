import HouseStyle.Event
import HouseStyle.Learning.Import

/-!
# The learner

Learning a batch takes three phases. First the batch is checked and the rows of its
files are read; then the files are read and analyzed; last comes the merge, which only
goes through if the store is still at the version of the first phase. A batch can be
called off until the merge begins.
-/

namespace HouseStyle

/-- A batch that has been checked, with what was read of the store for it. -/
structure LearningTask where
  changes : List FileChange
  origin : Origin
  version : Nat
  /-- The rows of the files that the batch names. -/
  tracked : List TrackedFile
  mode : LearningMode

/-- What came of a call: the store after it, the answer, and what listeners are told. -/
structure Learned where
  store : PatternStore
  result : Except LearnError LearningDelta
  events : List Event

/-- Every path that a batch names. -/
def mentionedPaths (changes : List FileChange) : List String :=
  changes.flatMap fun change => change.path :: change.previousPath.toList

/-- The first phase. -/
def LearningTask.begin (policy : LearningPolicy) (store : PatternStore)
    (changes : List FileChange) (origin : Origin) : Except LearnError LearningTask := do
  let changes ← coalesce policy.batchFiles changes
  if origin.isCancelled then throw .cancelled
  return {
    changes
    origin
    version := readWord store.version
    tracked := (mentionedPaths changes).filterMap store.getFile?
    mode := LearningMode.choose changes.length store.files.length policy.threshold }

/-- Whether any file has to be read. -/
def LearningTask.readsFiles (task : LearningTask) : Bool :=
  task.changes.any (·.isRead task.tracked)

/-- The second phase. -/
def LearningTask.steps (task : LearningTask) (sources : Sources) : List MergeStep :=
  task.changes.filterMap (MergeStep.ofChange? sources task.tracked task.origin.revision)

namespace Merged

/-- What a merge announces: new patterns, removed ones, and the delta. -/
def events (merged : Merged) (projectId : String) : List Event :=
  let delta := merged.delta
  if delta.isNoop then []
  else
    (merged.changes.filterMap (·.created?)).map (fun pattern =>
      .patternDiscovered projectId pattern.id pattern.category.name pattern.confidence) ++
    (merged.changes.filterMap (·.removed?)).map (fun id =>
      .patternRemoved projectId id delta.resultingVersion) ++
    [.deltaApplied projectId delta.trigger.name delta.precedingVersion delta.resultingVersion
      delta.patternsAdded delta.patternsModified delta.patternsRemoved delta.partialDegradation]

end Merged

namespace Learned

/-- Nothing was done. -/
def unchanged (store : PatternStore) (result : Except LearnError LearningDelta) : Learned :=
  ⟨store, result, []⟩

/-- The end of a merge. One that failed leaves the store alone. -/
def ofMerge (store : PatternStore) (projectId : String) (preceding : Nat) :
    Except StorageError Merged → Learned
  | .ok merged => ⟨merged.store, .ok merged.delta, merged.events projectId⟩
  | .error source =>
    let error := LearnError.mergeFailed preceding source
    ⟨store, .error error, [.deltaDiscarded projectId preceding error.code error.message]⟩

end Learned

namespace LearningTask

/-- The last phase. -/
def merge (task : LearningTask) (policy : LearningPolicy) (projectId : String) (now : Int)
    (store : PatternStore) (steps : List MergeStep) : Learned :=
  if task.origin.isCancelled then .unchanged store (.error .cancelled)
  else if steps.any (·.isWork) then
    .ofMerge store projectId task.version
      (store.merge policy task.origin task.mode task.version now steps)
  else
    .unchanged store (.ok (.noop task.origin task.version now
      (steps.filterMap (·.degradedPath?))))

/-- The second and last phase. -/
def finish (task : LearningTask) (policy : LearningPolicy) (sources : Sources)
    (projectId : String) (now : Int) (store : PatternStore) : Learned :=
  task.merge policy projectId now store (task.steps sources)

end LearningTask

/-- Learn a batch of changes. -/
def learn (policy : LearningPolicy) (sources : Sources) (projectId : String) (now : Int)
    (store : PatternStore) (changes : List FileChange) (origin : Origin) : Learned :=
  match LearningTask.begin policy store changes origin with
  | .error error => .unchanged store (.error error)
  | .ok task => task.finish policy sources projectId now store

/-- Bring in patterns that were learned elsewhere. -/
def importPatterns (policy : LearningPolicy) (projectId : String) (now : Int)
    (store : PatternStore) (seeds : List PatternSeed) : Learned :=
  match seeds.forM PatternSeed.check with
  | .error error => .unchanged store (.error error)
  | .ok () =>
    let version := readWord store.version
    if seeds.isEmpty then .unchanged store (.ok (.noop .manual version now []))
    else .ofMerge store projectId version (store.importSeeds policy version now seeds)

end HouseStyle
