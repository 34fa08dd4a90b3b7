import HouseStyle.Store.Column

/-!
# Rows of the portfolio

The tables shared by all projects. Whole numbers are signed 64-bit words.
-/

namespace HouseStyle

/-- A project that was linked at some time. -/
structure ProjectRow where
  id : String
  path : String
  name : String
  primaryLanguage : Option String
  /-- A JSON list of names. -/
  frameworks : String
  linkedAt : Int
  unlinkedAt : Option Int
  lastSyncedVersion : Int
  lastSyncedAt : Option Int
  patternCount : Int
  conceptCount : Int
  isActive : Bool
  deriving DecidableEq, Repr

namespace ProjectRow

def blank : ProjectRow :=
  ⟨"", "", "", none, "", 0, none, 0, none, 0, 0, false⟩

def columns : List (Column ProjectRow) := [
  .text "id" (·.id) fun v row => { row with id := v },
  .text "path" (·.path) fun v row => { row with path := v },
  .text "name" (·.name) fun v row => { row with name := v },
  .textOption "primary_language" (·.primaryLanguage) fun v row => { row with primaryLanguage := v },
  .text "frameworks" (·.frameworks) fun v row => { row with frameworks := v },
  .int "linked_at" (·.linkedAt) fun v row => { row with linkedAt := v },
  .intOption "unlinked_at" (·.unlinkedAt) fun v row => { row with unlinkedAt := v },
  .int "last_synced_version" (·.lastSyncedVersion) fun v row => { row with lastSyncedVersion := v },
  .intOption "last_synced_at" (·.lastSyncedAt) fun v row => { row with lastSyncedAt := v },
  .int "pattern_count" (·.patternCount) fun v row => { row with patternCount := v },
  .int "concept_count" (·.conceptCount) fun v row => { row with conceptCount := v },
  .bool "is_active" (·.isActive) fun v row => { row with isActive := v }]

def toJson (row : ProjectRow) : Json := Column.encode columns row

def ofJson (value : Json) : ProjectRow := Column.decode columns blank value

end ProjectRow

/-- A rule seen in some project, under its signature. -/
structure AggregationRow where
  signature : String
  category : String
  description : String
  aggregatedConfidence : Float
  consensusScore : Float
  /-- How many projects have an occurrence. -/
  occurrenceCount : Int
  /-- A JSON list of language tags. -/
  languages : String
  revision : Int
  createdAt : Int
  updatedAt : Int

namespace AggregationRow

def blank : AggregationRow :=
  ⟨"", "", "", 0.0, 0.0, 0, "", 0, 0, 0⟩

def columns : List (Column AggregationRow) := [
  .text "signature" (·.signature) fun v row => { row with signature := v },
  .text "category" (·.category) fun v row => { row with category := v },
  .text "description" (·.description) fun v row => { row with description := v },
  .real "aggregated_confidence" (·.aggregatedConfidence) fun v row => { row with aggregatedConfidence := v },
  .real "consensus_score" (·.consensusScore) fun v row => { row with consensusScore := v },
  .int "occurrence_count" (·.occurrenceCount) fun v row => { row with occurrenceCount := v },
  .text "languages" (·.languages) fun v row => { row with languages := v },
  .int "revision" (·.revision) fun v row => { row with revision := v },
  .int "created_at" (·.createdAt) fun v row => { row with createdAt := v },
  .int "updated_at" (·.updatedAt) fun v row => { row with updatedAt := v }]

def toJson (row : AggregationRow) : Json := Column.encode columns row

def ofJson (value : Json) : AggregationRow := Column.decode columns blank value

end AggregationRow

/-- One project's share in a rule. -/
structure OccurrenceRow where
  signature : String
  projectId : String
  patternId : String
  frequency : Int
  confidence : Float
  /-- A JSON list of language tags. -/
  languages : String
  updatedAt : Int

namespace OccurrenceRow

def blank : OccurrenceRow :=
  ⟨"", "", "", 0, 0.0, "", 0⟩

def columns : List (Column OccurrenceRow) := [
  .text "signature" (·.signature) fun v row => { row with signature := v },
  .text "project_id" (·.projectId) fun v row => { row with projectId := v },
  .text "pattern_id" (·.patternId) fun v row => { row with patternId := v },
  .int "frequency" (·.frequency) fun v row => { row with frequency := v },
  .real "confidence" (·.confidence) fun v row => { row with confidence := v },
  .text "languages" (·.languages) fun v row => { row with languages := v },
  .int "updated_at" (·.updatedAt) fun v row => { row with updatedAt := v }]

def toJson (row : OccurrenceRow) : Json := Column.encode columns row

def ofJson (value : Json) : OccurrenceRow := Column.decode columns blank value

end OccurrenceRow

end HouseStyle
