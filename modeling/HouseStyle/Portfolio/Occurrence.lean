import HouseStyle.Json.Decode
import HouseStyle.Pattern.Confidence
import HouseStyle.Text.Sorted

/-!
# Occurrences

An occurrence is one project's share in a rule that several projects may follow. The
confidence in the rule is the mean over its occurrences, weighted by how often each
project follows it; its consensus is the share of active projects that follow it.
-/

namespace HouseStyle

structure Occurrence where
  projectId : String
  patternId : String
  frequency : Nat
  confidence : Float
  languages : List String

namespace Occurrence

def toJson (o : Occurrence) : Json :=
  .object [
    ("project_id", .text o.projectId),
    ("pattern_id", .text o.patternId),
    ("frequency", .ofNat o.frequency),
    ("confidence", .ofReal o.confidence),
    ("languages", .ofTexts o.languages)]

def ofJson? (value : Json) : Option Occurrence := do
  let fields ← value.record? [
    ("project_id", .required), ("pattern_id", .required), ("frequency", .required),
    ("confidence", .required), ("languages", .required)]
  match fields with
  | [projectId, patternId, frequency, confidence, languages] =>
    some {
      projectId := ← Json.need? Json.asText? projectId
      patternId := ← Json.need? Json.asText? patternId
      frequency := ← Json.need? Json.asWord64? frequency
      confidence := ← Json.need? Json.asReal? confidence
      languages := ← Json.need? (Json.asList? Json.asText?) languages }
  | _ => none

end Occurrence

section WeightedMean

variable {α : Type} [Add α] [Mul α] [Div α] [LT α] [DecidableLT α] [OfNat α 0] [OfNat α 1]

/-- Add up from the left. -/
def total (xs : List α) : α := xs.foldl (· + ·) 0

/-- The mean of the second components, weighted by the first ones. When all weights are 0
they count the same, and no items at all give 0. -/
def weightedMean (ofNat : Nat → α) (items : List (Nat × α)) : α :=
  if items.isEmpty then 0
  else
    let weight := total (items.map fun item => ofNat item.1)
    clampUnit <|
      if 0 < weight then total (items.map fun item => ofNat item.1 * item.2) / weight
      else total (items.map (·.2)) / ofNat items.length

end WeightedMean

/-- How sure the rule is, over all projects. -/
def weightedConfidence (occurrences : List Occurrence) : Float :=
  weightedMean Float.ofNat (occurrences.map fun o => (o.frequency, o.confidence))

/-- The share of active projects that follow a rule. -/
def consensus (exhibiting active : Nat) : Float :=
  if active = 0 then 0.0 else clampUnit (Float.ofNat exhibiting / Float.ofNat active)

/-- Scores closer than this count as the same. -/
def consensusTolerance : Float := Float.ofScientific 2220446049250313 true 31

def sameConsensus (a b : Float) : Bool := (a - b).abs < consensusTolerance

/-- All languages of the occurrences, sorted, each once. -/
def mergedLanguages (occurrences : List Occurrence) : List String :=
  sortedTexts (occurrences.flatMap (·.languages))

end HouseStyle
