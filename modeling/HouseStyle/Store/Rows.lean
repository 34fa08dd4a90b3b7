import HouseStyle.Store.Column

/-!
# Rows of a pattern store

The tables of one project. Whole numbers are signed 64-bit words.
-/

namespace HouseStyle

/-- A stored pattern. Content, contexts and examples are JSON texts. -/
structure PatternRow where
  patternId : String
  patternType : String
  slot : String
  content : String
  frequency : Int
  baseline : Int
  confidence : Float
  contexts : String
  examples : String
  version : Int
  createdAt : Int
  lastSeen : Int

namespace PatternRow

def blank : PatternRow :=
  ⟨"", "", "", "", 0, 0, 0.0, "", "", 0, 0, 0⟩

def columns : List (Column PatternRow) := [
  .text "pattern_id" (·.patternId) fun v row => { row with patternId := v },
  .text "pattern_type" (·.patternType) fun v row => { row with patternType := v },
  .text "slot" (·.slot) fun v row => { row with slot := v },
  .text "content" (·.content) fun v row => { row with content := v },
  .int "frequency" (·.frequency) fun v row => { row with frequency := v },
  .int "baseline" (·.baseline) fun v row => { row with baseline := v },
  .real "confidence" (·.confidence) fun v row => { row with confidence := v },
  .text "contexts" (·.contexts) fun v row => { row with contexts := v },
  .text "examples" (·.examples) fun v row => { row with examples := v },
  .int "version" (·.version) fun v row => { row with version := v },
  .int "created_at" (·.createdAt) fun v row => { row with createdAt := v },
  .int "last_seen" (·.lastSeen) fun v row => { row with lastSeen := v }]

def toJson (row : PatternRow) : Json := Column.encode columns row

def ofJson (value : Json) : PatternRow := Column.decode columns blank value

end PatternRow

/-- A concept of a tracked file. -/
structure ConceptRow where
  filePath : String
  name : String
  kind : String
  confidence : Float
  lineStart : Int
  lineEnd : Int

namespace ConceptRow

def blank : ConceptRow :=
  ⟨"", "", "", 0.0, 0, 0⟩

def columns : List (Column ConceptRow) := [
  .text "file_path" (·.filePath) fun v row => { row with filePath := v },
  .text "name" (·.name) fun v row => { row with name := v },
  .text "kind" (·.kind) fun v row => { row with kind := v },
  .real "confidence" (·.confidence) fun v row => { row with confidence := v },
  .int "line_start" (·.lineStart) fun v row => { row with lineStart := v },
  .int "line_end" (·.lineEnd) fun v row => { row with lineEnd := v }]

def toJson (row : ConceptRow) : Json := Column.encode columns row

def ofJson (value : Json) : ConceptRow := Column.decode columns blank value

end ConceptRow

/-- One observation of a pattern in a file. -/
structure EvidenceRow where
  patternId : String
  filePath : String
  line : Int
  snippet : String
  deriving DecidableEq, Repr

namespace EvidenceRow

def blank : EvidenceRow :=
  ⟨"", "", 0, ""⟩

def columns : List (Column EvidenceRow) := [
  .text "pattern_id" (·.patternId) fun v row => { row with patternId := v },
  .text "file_path" (·.filePath) fun v row => { row with filePath := v },
  .int "line" (·.line) fun v row => { row with line := v },
  .text "snippet" (·.snippet) fun v row => { row with snippet := v }]

def toJson (row : EvidenceRow) : Json := Column.encode columns row

def ofJson (value : Json) : EvidenceRow := Column.decode columns blank value

end EvidenceRow

/-- A file that was analyzed, with the digest of what was read. -/
structure TrackedFile where
  filePath : String
  language : Option String
  contentHash : String
  degraded : Bool
  analyzedAt : Int
  revision : Option String
  deriving DecidableEq, Repr

namespace TrackedFile

def blank : TrackedFile :=
  ⟨"", none, "", false, 0, none⟩

def columns : List (Column TrackedFile) := [
  .text "file_path" (·.filePath) fun v row => { row with filePath := v },
  .textOption "language" (·.language) fun v row => { row with language := v },
  .text "content_hash" (·.contentHash) fun v row => { row with contentHash := v },
  .bool "degraded" (·.degraded) fun v row => { row with degraded := v },
  .int "analyzed_at" (·.analyzedAt) fun v row => { row with analyzedAt := v },
  .textOption "revision" (·.revision) fun v row => { row with revision := v }]

def toJson (row : TrackedFile) : Json := Column.encode columns row

def ofJson (value : Json) : TrackedFile := Column.decode columns blank value

end TrackedFile

/-- A logged merge. -/
structure DeltaRow where
  id : String
  trigger : String
  mode : String
  revision : Option String
  filesTouched : Int
  conceptsAdded : Int
  conceptsModified : Int
  conceptsRemoved : Int
  patternsAdded : Int
  patternsModified : Int
  patternsRemoved : Int
  durationMs : Int
  appliedAt : Int
  precedingVersion : Int
  resultingVersion : Int
  partialDegradation : Bool
  /-- A JSON list of paths. -/
  degradedFiles : String
  deriving DecidableEq, Repr

namespace DeltaRow

def blank : DeltaRow :=
  ⟨"", "", "", none, 0, 0, 0, 0, 0, 0, 0, 0, 0, 0, 0, false, ""⟩

def columns : List (Column DeltaRow) := [
  .text "id" (·.id) fun v row => { row with id := v },
  .text "trigger" (·.trigger) fun v row => { row with trigger := v },
  .text "mode" (·.mode) fun v row => { row with mode := v },
  .textOption "revision" (·.revision) fun v row => { row with revision := v },
  .int "files_touched" (·.filesTouched) fun v row => { row with filesTouched := v },
  .int "concepts_added" (·.conceptsAdded) fun v row => { row with conceptsAdded := v },
  .int "concepts_modified" (·.conceptsModified) fun v row => { row with conceptsModified := v },
  .int "concepts_removed" (·.conceptsRemoved) fun v row => { row with conceptsRemoved := v },
  .int "patterns_added" (·.patternsAdded) fun v row => { row with patternsAdded := v },
  .int "patterns_modified" (·.patternsModified) fun v row => { row with patternsModified := v },
  .int "patterns_removed" (·.patternsRemoved) fun v row => { row with patternsRemoved := v },
  .int "duration_ms" (·.durationMs) fun v row => { row with durationMs := v },
  .int "applied_at" (·.appliedAt) fun v row => { row with appliedAt := v },
  .int "preceding_version" (·.precedingVersion) fun v row => { row with precedingVersion := v },
  .int "resulting_version" (·.resultingVersion) fun v row => { row with resultingVersion := v },
  .bool "partial_degradation" (·.partialDegradation) fun v row => { row with partialDegradation := v },
  .text "degraded_files" (·.degradedFiles) fun v row => { row with degradedFiles := v }]

def toJson (row : DeltaRow) : Json := Column.encode columns row

def ofJson (value : Json) : DeltaRow := Column.decode columns blank value

end DeltaRow

/-- What a merge did to one pattern. -/
structure OperationRow where
  resultingVersion : Int
  /-- The place among the operations of one merge. -/
  seq : Int
  op : String
  patternId : String
  /-- The pattern as JSON, unless it was removed. -/
  payload : Option String
  deriving DecidableEq, Repr

namespace OperationRow

def blank : OperationRow :=
  ⟨0, 0, "", "", none⟩

def columns : List (Column OperationRow) := [
  .int "resulting_version" (·.resultingVersion) fun v row => { row with resultingVersion := v },
  .int "seq" (·.seq) fun v row => { row with seq := v },
  .text "op" (·.op) fun v row => { row with op := v },
  .text "pattern_id" (·.patternId) fun v row => { row with patternId := v },
  .textOption "payload" (·.payload) fun v row => { row with payload := v }]

def toJson (row : OperationRow) : Json := Column.encode columns row

def ofJson (value : Json) : OperationRow := Column.decode columns blank value

end OperationRow

/-- A removed pattern. -/
structure TombstoneRow where
  patternId : String
  version : Int
  patternType : String
  content : String
  removedAt : Int
  deriving DecidableEq, Repr

namespace TombstoneRow

def blank : TombstoneRow :=
  ⟨"", 0, "", "", 0⟩

def columns : List (Column TombstoneRow) := [
  .text "pattern_id" (·.patternId) fun v row => { row with patternId := v },
  .int "version" (·.version) fun v row => { row with version := v },
  .text "pattern_type" (·.patternType) fun v row => { row with patternType := v },
  .text "content" (·.content) fun v row => { row with content := v },
  .int "removed_at" (·.removedAt) fun v row => { row with removedAt := v }]

def toJson (row : TombstoneRow) : Json := Column.encode columns row

def ofJson (value : Json) : TombstoneRow := Column.decode columns blank value

end TombstoneRow

/-- Paths that need not follow a pattern. -/
structure ExceptionRow where
  id : Int
  patternId : String
  scopeGlob : String
  reason : String
  createdAt : Int
  deriving DecidableEq, Repr

namespace ExceptionRow

def blank : ExceptionRow :=
  ⟨0, "", "", "", 0⟩

def columns : List (Column ExceptionRow) := [
  .int "id" (·.id) fun v row => { row with id := v },
  .text "pattern_id" (·.patternId) fun v row => { row with patternId := v },
  .text "scope_glob" (·.scopeGlob) fun v row => { row with scopeGlob := v },
  .text "reason" (·.reason) fun v row => { row with reason := v },
  .int "created_at" (·.createdAt) fun v row => { row with createdAt := v }]

def toJson (row : ExceptionRow) : Json := Column.encode columns row

def ofJson (value : Json) : ExceptionRow := Column.decode columns blank value

end ExceptionRow

/-- A violation that a check found and kept. -/
structure ViolationRow where
  patternId : String
  filePath : String
  lineStart : Int
  lineEnd : Int
  severity : String
  message : String
  suggestedFix : Option String
  checkedAt : Int
  deriving DecidableEq, Repr

namespace ViolationRow

def blank : ViolationRow :=
  ⟨"", "", 0, 0, "", "", none, 0⟩

def columns : List (Column ViolationRow) := [
  .text "pattern_id" (·.patternId) fun v row => { row with patternId := v },
  .text "file_path" (·.filePath) fun v row => { row with filePath := v },
  .int "line_start" (·.lineStart) fun v row => { row with lineStart := v },
  .int "line_end" (·.lineEnd) fun v row => { row with lineEnd := v },
  .text "severity" (·.severity) fun v row => { row with severity := v },
  .text "message" (·.message) fun v row => { row with message := v },
  .textOption "suggested_fix" (·.suggestedFix) fun v row => { row with suggestedFix := v },
  .int "checked_at" (·.checkedAt) fun v row => { row with checkedAt := v }]

def toJson (row : ViolationRow) : Json := Column.encode columns row

def ofJson (value : Json) : ViolationRow := Column.decode columns blank value

end ViolationRow

end HouseStyle
