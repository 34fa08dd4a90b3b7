import HouseStyle.Portfolio.Refresh

/-!
# Views of the portfolio

Aggregations with all their occurrences, chosen by a filter, and the portfolio in
numbers.
-/

namespace HouseStyle

/-- A rule with the share of every project in it. -/
structure Aggregation where
  signature : String
  category : String
  description : String
  occurrences : List Occurrence
  confidence : Float
  consensus : Float
  projectCount : Nat
  languages : List String
  revision : Nat
  createdAt : Int
  updatedAt : Int

namespace Aggregation

def ofRow (row : AggregationRow) (occurrences : List OccurrenceRow) :
    Except StorageError Aggregation := do
  let occurrences ← occurrences.mapM Occurrence.ofRow
  let languages ← readTexts "aggregation languages" row.languages
  return {
    signature := row.signature
    category := row.category
    description := row.description
    occurrences
    confidence := row.aggregatedConfidence
    consensus := row.consensusScore
    projectCount := readWord row.occurrenceCount
    languages
    revision := readWord row.revision
    createdAt := row.createdAt
    updatedAt := row.updatedAt }

def toJson (a : Aggregation) : Json :=
  .object [
    ("signature", .text a.signature),
    ("category", .text a.category),
    ("description", .text a.description),
    ("occurrences", .list (a.occurrences.map (·.toJson))),
    ("aggregated_confidence", .ofReal a.confidence),
    ("consensus_score", .ofReal a.consensus),
    ("project_count", .ofNat a.projectCount),
    ("languages", .ofTexts a.languages),
    ("revision", .ofNat a.revision),
    ("created_at", .int a.createdAt),
    ("updated_at", .int a.updatedAt)]

/-- The text that stands for the rule in a search. -/
def searchText (a : Aggregation) : String := a.signature ++ " " ++ a.description

end Aggregation

/-- Which aggregations to show. What is left open does not constrain. -/
structure AggregationFilter where
  category : Option String
  minProjects : Option Nat
  minConsensus : Option Float
  language : Option String
  limit : Option Nat

namespace AggregationFilter

def ofJson? (value : Json) : Option AggregationFilter := do
  let fields ← value.record? [("category", .defaulted), ("min_project_count", .defaulted),
    ("min_consensus", .defaulted), ("language", .defaulted), ("limit", .defaulted)]
  match fields with
  | [category, minProjects, minConsensus, language, limit] =>
    some {
      category := ← Json.orElse? none (Json.asOption? Json.asText?) category
      minProjects := ← Json.orElse? none (Json.asOption? Json.asWord64?) minProjects
      minConsensus := ← Json.orElse? none (Json.asOption? Json.asReal?) minConsensus
      language := ← Json.orElse? none (Json.asOption? Json.asText?) language
      limit := ← Json.orElse? none (Json.asOption? Json.asWord64?) limit }
  | _ => none

/-- The query for a filter. Numbers beyond a signed word are cut to the largest one. -/
def query (filter : AggregationFilter) (defaultLimit : Nat) : Portfolio.Query :=
  let cut (n : Nat) : Int := (min n Word.greatest : Nat)
  { category := filter.category
    minProjects := filter.minProjects.map cut
    minConsensus := filter.minConsensus
    language := filter.language
    limit := cut (filter.limit.getD defaultLimit) }

end AggregationFilter

/-- The portfolio in numbers. -/
structure Overview where
  projects : Nat
  patterns : Nat
  concepts : Nat
  aggregations : Nat
  /-- Primary languages, with the number of projects. -/
  languages : List (String × Nat)
  deriving DecidableEq, Repr, Inhabited

def Overview.toJson (o : Overview) : Json :=
  .object [
    ("total_projects", .ofNat o.projects),
    ("total_patterns", .ofNat o.patterns),
    ("total_concepts", .ofNat o.concepts),
    ("total_aggregations", .ofNat o.aggregations),
    ("top_languages", .list (o.languages.map fun (language, projects) =>
      .object [("language", .text language), ("projects", .ofNat projects)]))]

namespace Portfolio

def getAggregations (portfolio : Portfolio) (filter : AggregationFilter) (defaultLimit : Nat) :
    Except StorageError (List Aggregation) := do
  (← portfolio.query (filter.query defaultLimit)).mapM fun row =>
    Aggregation.ofRow row (portfolio.occurrencesFor row.signature)

/-- The portfolio with at most so many languages. -/
def overview (portfolio : Portfolio) (languages : Nat) : Except StorageError Overview := do
  let (projects, patterns, concepts) ← portfolio.totals
  return {
    projects
    patterns := readWord patterns
    concepts := readWord concepts
    aggregations := portfolio.aggregations.length
    languages := takeLimit languages portfolio.topLanguages }

end Portfolio

end HouseStyle
