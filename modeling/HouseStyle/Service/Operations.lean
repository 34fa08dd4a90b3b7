import HouseStyle.Compliance.Check
import HouseStyle.Learning.Replay
import HouseStyle.Portfolio.Ranking
import HouseStyle.Portfolio.Sync
import HouseStyle.Portfolio.View
import HouseStyle.Service.Scheduler

/-!
# The operations of a service

Learning, checking, syncing and registering, each on the open store of a project or on
the portfolio.
-/

namespace HouseStyle.Service

/-! ## Learning -/

/-- Keep what a project has learned, and give the answer. -/
def keepLearned (project : OpenProject) (learned : Learned) : ServiceM LearningDelta := do
  modify fun service =>
    (service.withStore project.store learned.store).announceAll learned.events
  orFail .learn learned.result

/-- Learn a batch of changes at once. -/
def processChanges (id : String) (changes : List FileChange) (origin : Origin) :
    ServiceM LearningDelta := do
  let opened ← project id
  let service ← get
  keepLearned opened
    (learn service.learningPolicy (service.sources opened.path) id service.host.now
      (service.store opened.store) changes origin)

def importPatterns (id : String) (seeds : List PatternSeed) : ServiceM LearningDelta := do
  let opened ← project id
  let service ← get
  keepLearned opened
    (HouseStyle.importPatterns service.learningPolicy id service.host.now
      (service.store opened.store) seeds)

/-- Queue changes for learning in the background, and count those that still wait. -/
def queueChanges (id : String) (changes : List FileChange) (trigger : Trigger) :
    ServiceM Nat := do
  let _ ← project id
  submit id changes trigger
  return (← get).pending id

/-- Wait for the background and take the results of a project's batches. -/
def awaitLearning (id : String) : ServiceM (List LearningDelta × List Report) := do
  let _ ← project id
  let results ← takeResults id
  let deltas := results.filterMap fun
    | .ok delta => some delta
    | .error _ => none
  let reports := results.filterMap fun
    | .ok _ => none
    | .error error => some (Report.ofError (.learn error))
  return (deltas, reports)

/-- The store of a project, for reading. -/
def storeOf (id : String) : ServiceM PatternStore := do
  let opened ← project id
  return (← get).store opened.store

def patterns (id : String) : ServiceM (List Pattern) := do
  orFail .learn ((← storeOf id).loadPatterns.mapError .storage)

def pattern? (id patternId : String) : ServiceM (Option Pattern) := do
  orFail .learn (((← storeOf id).readPattern? patternId).mapError .storage)

/-- The logged deltas of a project. -/
def deltas (id : String) : ServiceM (List LearningDelta) := do
  orFail .learn (((← storeOf id).listDeltas.mapM LearningDelta.ofRow).mapError .storage)

def verifyReplay (id : String) : ServiceM Bool := do
  orFail .storage (← storeOf id).verifyReplay

def replay (id : String) : ServiceM (List Pattern) := do
  orFail .storage (← storeOf id).replay

/-! ## Checking -/

/-- Check a text as if it were the content of a project's file. -/
def checkCompliance (id code path : String) (options : CheckOptions) :
    ServiceM ComplianceReport := do
  let opened ← project id
  let service ← get
  let checked := HouseStyle.checkCompliance service.settings.detection.severityPolicy
    service.options.extract service.host.now (service.store opened.store) code path options
  modify fun service =>
    (service.withStore opened.store checked.store).announceAll checked.events
  orFail .detection checked.result

def addException (id patternId reason scope : String) : ServiceM ExceptionRow := do
  let opened ← project id
  let service ← get
  let (store, row) ← orFail .detection
    ((service.store opened.store).addException service.host.now patternId reason scope)
  set ((service.withStore opened.store store).announceAll [.exceptionAdded id patternId scope])
  return row

def isExcepted (id patternId path : String) : ServiceM Bool := do
  orFail .detection ((← storeOf id).isExcepted patternId path)

def exceptions (id patternId : String) : ServiceM (List ExceptionRow) := do
  return (← storeOf id).exceptionsForPattern patternId

/-- The violations kept of a file. -/
def history (id path : String) : ServiceM (List ViolationRecord) := do
  orFail .detection (violationHistory (← storeOf id) path)

/-! ## Syncing -/

/-- Claim a project for a sync. -/
def beginSync (id : String) : ServiceM Unit := do
  let service ← get
  if service.syncing.contains id then orFail .sync (.error (.inProgress id))
  set { service with syncing := id :: service.syncing }

def endSync (service : Service) (id : String) : Service :=
  { service with syncing := service.syncing.erase id }

/-- The store that syncs of a project read. It is opened from its file when none is attached. -/
def attachedStore (row : ProjectRow) : ServiceM Nat := do
  let service ← get
  match service.attached.lookup row.id with
  | some number => return number
  | none =>
    let (host, number) ← orFail .sync ((service.host.openStore row.path).mapError .storage)
    set { service with host, attached := putKeyed row.id number service.attached }
    return number

/-- Sync a project whose claim is held. -/
def syncClaimed (id : String) : ServiceM SyncResult := do
  let row ← orFail .sync ((← get).portfolio.activeProject id)
  let number ← attachedStore row
  let service ← get
  let synced := service.portfolio.syncFrom service.attempts service.host.now row
    (service.store number)
  set ((service.withPortfolio synced.portfolio).announceAll synced.events)
  orFail .sync synced.result

/-- Do something while a project is claimed for a sync. -/
def withClaim {α : Type} (id : String) (act : ServiceM α) : ServiceM α := do
  beginSync id
  tryFinally act (modify fun service => service.endSync id)

/-- Sync a project from the store that is attached for it. -/
def syncAttached (id : String) : ServiceM SyncResult := withClaim id (syncClaimed id)

/-- Open a project and sync it. -/
def syncProject (id : String) : ServiceM SyncResult := do
  let _ ← project id
  syncAttached id

/-- Take back all that a project contributed, and count the signatures. -/
def rebase (id : String) : ServiceM Nat := withClaim id do
  let service ← get
  let (portfolio, count) ← orFail .sync
    (service.portfolio.rebase service.attempts service.host.now id)
  set (service.withPortfolio portfolio)
  return count

/-- Read no store for a project's syncs until one is opened, and tell whether one was read. -/
def detach (id : String) : ServiceM Bool := do
  let service ← get
  set { service with attached := eraseKeyed id service.attached }
  return hasKey id service.attached

def getAggregations (filter : AggregationFilter) : ServiceM (List Aggregation) := do
  let service ← get
  orFail .storage (service.portfolio.getAggregations filter service.settings.aggregation.limit)

/-- Aggregations by their similarity to a query. Without an embedder all are alike. -/
def ranked (filter : AggregationFilter) (query : String) (embedder : Option Embedder) :
    ServiceM (List (Aggregation × Float)) := do
  let service ← get
  let named {ε α : Type} (wrap : ε → OperationError) (result : Except ε α) : ServiceM α :=
    match result with
    | .ok value => pure value
    | .error error => throw (.ofNamedError (wrap error))
  let found ← named .storage
    (service.portfolio.getAggregations filter service.settings.aggregation.limit)
  match embedder with
  | none => return found.map (·, 0.0)
  | some embedder => named .extraction (embedder.rank query Aggregation.searchText found)

def overview : ServiceM Overview := do
  let service ← get
  orFail .storage (service.portfolio.overview service.settings.aggregation.languages)

/-! ## Registering -/

/-- The directory that a path names, with all its parts there. -/
def projectDirectory (host : Host) (path : String) : Except RegistryError String :=
  if path.isEmpty then .error (.invalidPath "" "path is empty")
  else
    match host.files.resolve [] path with
    | .error failure => .error (.invalidPath path failure.message)
    | .ok (place, node) =>
      if node.isDirectory then .ok (Path.ofNames place)
      else .error (.invalidPath path "not a directory")

/-- Link the project in a directory, and tell whether it was known before. -/
def linkProject (path : String) (metadata : ProjectMetadata) : ServiceM (Project × Bool) := do
  let service ← get
  let directory ← orFail .registry (projectDirectory service.host path)
  let newId := service.host.nextProjectId
  let (portfolio, row, relinked) ← orFail .registry
    ((service.portfolio.link service.attempts service.host.now newId directory
      metadata).mapError .storage)
  let service := service.withPortfolio portfolio
  let count := service.host.projectCount
  set { service with host.projectCount := if relinked then count else count + 1 }
  let project ← orFail .registry ((Project.ofRow row).mapError .storage)
  modify fun service => service.announceAll [.projectLinked project.id project.path relinked]
  return (project, relinked)

/-- Make a project inactive and close it. -/
def unlinkProject (id : String) : ServiceM Project := do
  let service ← get
  let (portfolio, wasActive) ← orFail .registry
    (service.portfolio.unlink service.attempts service.host.now id)
  set ((service.withPortfolio portfolio).announceAll
    (if wasActive then [.projectUnlinked id] else []))
  let _ ← release id
  match ← orFail .registry (portfolio.findProject id) with
  | some project => return project
  | none => throw (.unknownProject id)

def updateStats (id : String) (patterns concepts : Nat) : ServiceM Unit := do
  let service ← get
  set (service.withPortfolio (← orFail .registry
    (service.portfolio.setStats id patterns concepts)))

def projectList (activeOnly : Bool) : ServiceM (List Project) := do
  orFail .registry ((← get).portfolio.projectList activeOnly)

def findProject (id : String) : ServiceM (Option Project) := do
  orFail .registry ((← get).portfolio.findProject id)

def findByPath (path : String) : ServiceM (Option Project) := do
  let service ← get
  let directory ← orFail .registry (projectDirectory service.host path)
  orFail .registry (service.portfolio.findByPath directory)

/-- End the service and start it again with the same options. Databases in memory are lost. -/
def restart : ServiceM Unit := do
  let service := (← get).stopScheduler
  match start service.host service.options with
  | .ok service => set service
  | .error report =>
    set service
    throw report

end HouseStyle.Service
