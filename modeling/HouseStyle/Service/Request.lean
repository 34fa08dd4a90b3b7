import HouseStyle.Change.Form
import HouseStyle.Json.Lookup
import HouseStyle.Service.Operations

/-!
# Requests

A request names one of the eleven operations and holds its arguments. Requests come in
as JSON, and so do the answers go out.
-/

namespace HouseStyle

inductive Operation where
  | processChanges
  | queueChanges
  | awaitLearning
  | checkCompliance
  | addException
  | isExcepted
  | syncProject
  | getAggregations
  | getPortfolioView
  | linkProject
  | unlinkProject
  deriving DecidableEq, Repr, Inhabited

namespace Operation

def all : List Operation :=
  [processChanges, queueChanges, awaitLearning, checkCompliance, addException, isExcepted,
    syncProject, getAggregations, getPortfolioView, linkProject, unlinkProject]

def name : Operation → String
  | processChanges => "processChanges"
  | queueChanges => "queueChanges"
  | awaitLearning => "awaitLearning"
  | checkCompliance => "checkCompliance"
  | addException => "addException"
  | isExcepted => "isExcepted"
  | syncProject => "syncProject"
  | getAggregations => "getAggregations"
  | getPortfolioView => "getPortfolioView"
  | linkProject => "linkProject"
  | unlinkProject => "unlinkProject"

def ofName? (text : String) : Option Operation := all.find? (·.name == text)

end Operation

inductive Request where
  | processChanges (projectId : String) (changes : List FileChange) (trigger : Trigger)
      (revision : Option String)
  | queueChanges (projectId : String) (changes : List FileChange) (trigger : Trigger)
  | awaitLearning (projectId : String)
  | checkCompliance (projectId code path : String) (options : CheckOptions)
  | addException (projectId patternId reason scope : String)
  | isExcepted (projectId patternId path : String)
  | syncProject (projectId : String)
  | getAggregations (filter : AggregationFilter)
  | getPortfolioView
  | linkProject (path : String) (metadata : ProjectMetadata)
  | unlinkProject (projectId : String)

namespace Request

open Json (need? orElse? asText? asList? asOption?)

def projectId? : Request → Option String
  | processChanges id _ _ _ | queueChanges id _ _ | awaitLearning id | checkCompliance id _ _ _
  | addException id _ _ _ | isExcepted id _ _ | syncProject id | unlinkProject id => some id
  | getAggregations _ | getPortfolioView | linkProject _ _ => none

private def ofProject? (make : String → Request) (value : Json) : Option Request := do
  match ← value.record? [("project_id", .required)] with
  | [id] => some (make (← need? asText? id))
  | _ => none

private def ofTexts? (names : List String) (make : List String → Option Request)
    (value : Json) : Option Request := do
  let fields ← value.record? (names.map (·, .required))
  make (← fields.mapM (need? asText?))

/-- The request for an operation with the given arguments. -/
def ofArguments? (value : Json) : Operation → Option Request
  | .processChanges => do
    match ← value.record? [("project_id", .required), ("changes", .required),
        ("trigger", .defaulted), ("revision", .defaulted)] with
    | [id, changes, trigger, revision] =>
      some (processChanges (← need? asText? id) (← need? (asList? FileChange.ofJson?) changes)
        (← orElse? .manual Trigger.ofJson? trigger)
        (← orElse? none (asOption? asText?) revision))
    | _ => none
  | .queueChanges => do
    match ← value.record? [("project_id", .required), ("changes", .required),
        ("trigger", .defaulted)] with
    | [id, changes, trigger] =>
      some (queueChanges (← need? asText? id) (← need? (asList? FileChange.ofJson?) changes)
        (← orElse? .watch Trigger.ofJson? trigger))
    | _ => none
  | .awaitLearning => ofProject? awaitLearning value
  | .checkCompliance => do
    match ← value.record? [("project_id", .required), ("code", .required),
        ("file_path", .required), ("options", .defaulted)] with
    | [id, code, path, options] =>
      some (checkCompliance (← need? asText? id) (← need? asText? code) (← need? asText? path)
        (← orElse? .standard CheckOptions.ofJson? options))
    | _ => none
  | .addException =>
    ofTexts? ["project_id", "pattern_id", "reason", "scope_glob"]
      (fun
        | [id, pattern, reason, scope] => some (addException id pattern reason scope)
        | _ => none) value
  | .isExcepted =>
    ofTexts? ["project_id", "pattern_id", "file_path"]
      (fun
        | [id, pattern, path] => some (isExcepted id pattern path)
        | _ => none) value
  | .syncProject => ofProject? syncProject value
  | .getAggregations => (AggregationFilter.ofJson? value).map getAggregations
  | .getPortfolioView => some getPortfolioView
  | .linkProject => do
    match ← value.record? [("path", .required), ("metadata", .defaulted)] with
    | [path, metadata] =>
      some (linkProject (← need? asText? path)
        (← orElse? .unset ProjectMetadata.ofJson? metadata))
    | _ => none
  | .unlinkProject => ofProject? unlinkProject value

/-- The request for an operation. Arguments that are left out count as an empty object. -/
def ofJson (operation : Operation) (arguments : Json) : Except Report Request :=
  let value := if arguments.isNull then .object [] else arguments
  match ofArguments? value operation with
  | some request => .ok request
  | none => .error (.invalidInput ("invalid arguments for " ++ operation.name))

end Request

namespace Service

private def codedError (report : Report) : Json :=
  .object [("code", .text report.code), ("message", .text report.message),
    ("retryable", .bool report.retryable)]

/-- Carry a request out, and give the answer as JSON. -/
def answer : Request → ServiceM Json
  | .processChanges id changes trigger revision => do
    return (← processChanges id changes ⟨trigger, revision, none⟩).toJson
  | .queueChanges id changes trigger => do
    let pending ← queueChanges id changes trigger
    return .object [("project_id", .text id), ("pending", .ofNat pending)]
  | .awaitLearning id => do
    let (deltas, reports) ← awaitLearning id
    return .object [("project_id", .text id),
      ("deltas", .list (deltas.map (·.toJson))),
      ("errors", .list (reports.map codedError))]
  | .checkCompliance id code path options => do
    return (← checkCompliance id code path options).toJson
  | .addException id pattern reason scope => do
    return (← addException id pattern reason scope).toJson
  | .isExcepted id pattern path => do
    return .object [("excepted", .bool (← isExcepted id pattern path))]
  | .syncProject id => do return (← syncProject id).toJson
  | .getAggregations filter => do
    return .list ((← getAggregations filter).map (·.toJson))
  | .getPortfolioView => do return (← overview).toJson
  | .linkProject path metadata => do
    let (project, relinked) ← linkProject path metadata
    return .object [("project", project.toJson), ("relinked", .bool relinked)]
  | .unlinkProject id => do return (← unlinkProject id).toJson

/-- Carry out the operation with a name. -/
def dispatch (name : String) (arguments : Json) : ServiceM Json := do
  match Operation.ofName? name with
  | none => throw (.invalidInput ("unknown operation '" ++ name ++ "'"))
  | some operation =>
    match Request.ofJson operation arguments with
    | .ok request => answer request
    | .error report => throw report

end Service

end HouseStyle
