import HouseStyle.Portfolio.Refresh
import HouseStyle.Store.Console

/-!
# The console of the portfolio

The reads and writes of the portfolio by their names.
-/

namespace HouseStyle.Portfolio

open Json (ofNat)

private def listed {ρ : Type} (encode : ρ → Json) (rows : List ρ) : Json :=
  .list (rows.map encode)

/-- The query that a step asks. -/
def queryOf (step : Json) : Query where
  category := step.optionalTextAt "category"
  minProjects := step.optionalIntAt "min_project_count"
  minConsensus := (step.field? "min_consensus").bind Json.asMeasure?
  language := step.optionalTextAt "language"
  limit := (step.optionalIntAt "limit").getD 100

/-- What a step says about a rule, when it says all of it. -/
def ruleTextOf (step : Json) : Option RuleText := do
  some ⟨← step.optionalTextAt "category", ← step.optionalTextAt "description"⟩

/-- A read by its name. -/
def read? (portfolio : Portfolio) (name : String) (step : Json) :
    Option (Except StorageError Json) :=
  let signature := step.textAt "signature"
  match name with
  | "get_project" =>
    some (.ok (.ofOption ProjectRow.toJson (portfolio.getProject? (step.textAt "id"))))
  | "get_project_by_path" =>
    some (.ok (.ofOption ProjectRow.toJson (portfolio.getProjectByPath? (step.textAt "path"))))
  | "list_projects" =>
    some (.ok (listed ProjectRow.toJson (portfolio.listProjects (step.boolAt "active_only"))))
  | "count_active_projects" => some (.ok (ofNat portfolio.countActive))
  | "portfolio_totals" =>
    some (portfolio.totals.map fun (projects, patterns, concepts) =>
      .list [ofNat projects, .int patterns, .int concepts])
  | "top_languages" =>
    let limit := step.wordAt "limit"
    let languages := portfolio.topLanguages
    some (.ok (listed (fun (language, n) => .list [.text language, ofNat n])
      (takeLimit limit languages)))
  | "get_aggregation" =>
    some (.ok (.ofOption AggregationRow.toJson (portfolio.getAggregation? signature)))
  | "occurrences_for" =>
    some (.ok (listed OccurrenceRow.toJson (portfolio.occurrencesFor signature)))
  | "active_project_count_for" => some (.ok (ofNat (portfolio.activeCountFor signature)))
  | "consensus_snapshot" =>
    some (.ok (listed (fun row =>
      .list [.text row.signature, .real row.consensusScore, .int row.revision])
      portfolio.snapshot))
  | "query" => some ((portfolio.query (queryOf step)).map (listed AggregationRow.toJson))
  | "count_aggregations" => some (.ok (ofNat portfolio.aggregations.length))
  | _ => none

/-- A write by its name. Consensus values are brought up to date one by one. -/
def write? (portfolio : Portfolio) (name : String) (step : Json) :
    Option (Except StorageError Json × Portfolio) :=
  let id := step.textAt "id"
  let signature := step.textAt "signature"
  let row := step.objectAt "row"
  let expected := step.intAt "expected"
  let now := step.intAt "now"
  let change (write : Except StorageError Portfolio) :=
    some (Console.whole (fun _ => .null) (write.map fun changed => (changed, ())) portfolio)
  let told (write : Except StorageError (Portfolio × Bool)) :=
    some (Console.whole .bool write portfolio)
  let texts (write : Except StorageError (Portfolio × List String)) :=
    some (Console.whole .ofTexts write portfolio)
  match name with
  | "insert_project" => change (portfolio.insertProject (.ofJson row))
  | "relink_project" =>
    change (portfolio.relinkProject id (step.textAt "name") (step.optionalTextAt "language")
      (step.textAt "frameworks"))
  | "deactivate_project" => told (portfolio.deactivateProject id now)
  | "update_project_stats" =>
    change (portfolio.updateStats id (step.intAt "patterns") (step.intAt "concepts"))
  | "advance_checkpoint" => change (portfolio.advanceCheckpoint id (step.intAt "version") now)
  | "reset_checkpoint" => change (portfolio.resetCheckpoint id now)
  | "insert_aggregation" => told (portfolio.insertAggregation (.ofJson row))
  | "cas_update" => told (portfolio.casUpdate (.ofJson row) expected)
  | "cas_consensus" =>
    told (portfolio.casConsensus signature (step.realAt "consensus") expected now)
  | "cas_delete" => told (portfolio.casDelete signature expected)
  | "upsert_occurrence" => told (portfolio.upsertOccurrence (.ofJson row))
  | "delete_pattern_occurrences" =>
    texts (portfolio.deletePatternOccurrences (step.textAt "project") (step.textAt "pattern"))
  | "delete_project_occurrences" =>
    texts (portfolio.deleteProjectOccurrences (step.textAt "project"))
  | "refresh" =>
    some (Console.whole (fun (outcome, retries) =>
        .object [("outcome", .text outcome.name), ("retries", ofNat retries)])
      (portfolio.refresh signature (ruleTextOf step) (step.wordAt "attempts") now) portfolio)
  | "recompute" =>
    let (result, left) := portfolio.recomputeEach (step.wordAt "attempts") now
    some (result.map ofNat, left)
  | _ => none

def console : Console Portfolio where
  perform name step portfolio :=
    match portfolio.read? name step with
    | some result => (result, portfolio)
    | none => (portfolio.write? name step).getD (.error (.notFound "step" name), portfolio)
  rolledBack before _ := before
  faults := (·.faults)
  withFaults portfolio faults := { portfolio with faults }
  schema := "global"
  schemaVersion := 2
  cacheKib := 16000
  busyTimeoutMs := 10000

end HouseStyle.Portfolio
