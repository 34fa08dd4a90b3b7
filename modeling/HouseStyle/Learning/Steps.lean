import HouseStyle.Digest.Xxh3
import HouseStyle.Extraction.Observation
import HouseStyle.Learning.Coalesce
import HouseStyle.Store.PatternStore

/-!
# The steps of a merge

Every change of a coalesced batch becomes one step. A file that has to be read is read
and analyzed here, before the merge begins, so that a merge never waits for a file.
-/

namespace HouseStyle

/-- Where the texts of source files and the concepts in them come from. -/
structure Sources where
  read : String → Except ExtractionError String
  extract : String → String → Except ExtractionError Extraction

/-- What was found in a file. -/
structure Analysis where
  language : Option Language
  contentHash : String
  concepts : List Concept
  observations : List Observation
  degraded : Bool

/-- What came of reading a file. -/
inductive Reading where
  | analyzed (analysis : Analysis)
  /-- The file is tracked with the same content. -/
  | unchanged
  /-- The file could not be read or understood, and keeps the rows it has. -/
  | failed

inductive MergeStep where
  | examine (path : String) (revision : Option String) (reading : Reading)
  | delete (path : String)
  | rename (source target : String) (revision : Option String)

/-- Read and analyze a file, unless its content is the tracked one. A file that was not
fully understood is always analyzed again. -/
def Sources.examine (sources : Sources) (tracked : Option TrackedFile) (path : String) : Reading :=
  match sources.read path with
  | .error _ => .failed
  | .ok content =>
    let contentHash := Digest.ofText content
    if tracked.any fun file => file.contentHash == contentHash && !file.degraded then .unchanged
    else
      match sources.extract path content with
      | .error _ => .failed
      | .ok extraction =>
        .analyzed {
          language := Language.ofPath? path
          contentHash
          concepts := extraction.concepts
          observations := Observation.observe path content extraction
          degraded := extraction.degraded }

/-- Whether the file of a change has to be read. A renamed file is read like a new one when
the file it comes from is not tracked. -/
def FileChange.isRead (change : FileChange) (tracked : List TrackedFile) : Bool :=
  match change.kind with
  | .added | .modified => true
  | .deleted => false
  | .renamed => change.previousPath.any fun source => !tracked.any (·.filePath == source)

namespace MergeStep

/-- The step for a change. -/
def ofChange? (sources : Sources) (tracked : List TrackedFile) (revision : Option String)
    (change : FileChange) : Option MergeStep :=
  let revision := change.revision.or revision
  if change.isRead tracked then
    let row := tracked.find? (·.filePath == change.path)
    some (examine change.path revision (sources.examine row change.path))
  else if change.kind = .renamed then
    change.previousPath.map fun source => rename source change.path revision
  else some (delete change.path)

/-- Whether the step may change the store. -/
def isWork : MergeStep → Bool
  | examine _ _ (.analyzed _) | delete _ | rename .. => true
  | examine _ _ .unchanged | examine _ _ .failed => false

/-- The path of a file that could not be read, or not be fully understood. -/
def degradedPath? : MergeStep → Option String
  | examine path _ .failed => some path
  | examine path _ (.analyzed analysis) => if analysis.degraded then some path else none
  | examine _ _ .unchanged | delete _ | rename .. => none

def revision? : MergeStep → Option String
  | examine _ revision _ | rename _ _ revision => revision
  | delete _ => none

end MergeStep

end HouseStyle
