import HouseStyle.Learning.Worker
import HouseStyle.Portfolio.Register
import HouseStyle.Service.Host

/-!
# The service

A service keeps the stores of linked projects open and gives each an own queue of
changes. Its actions either give an answer or fail with a report; what happened to the
databases before a failure stays.
-/

namespace HouseStyle

/-- Where databases are kept: in memory; or in files, the portfolio in the given directory
or else in the configured one. -/
inductive Placement where
  | inMemory
  | onDisk (portfolioDirectory : Option String)
  deriving DecidableEq, Repr, Inhabited

structure ServiceOptions where
  placement : Placement
  /-- Settings as text, which come before those of a directory. -/
  configText : Option String
  configRoot : Option String
  extract : String → String → Except ExtractionError Extraction

/-- A project whose store is open. -/
structure OpenProject where
  store : Nat
  path : String
  deriving DecidableEq, Repr, Inhabited

/-- The queue of a project in the scheduler, with the results of its batches. -/
structure Slot where
  /-- Tells the slot from earlier ones of the same project. -/
  number : Nat
  project : OpenProject
  queue : ChangeQueue
  /-- Whether a worker has the slot or is due to take it. -/
  isScheduled : Bool
  results : List (Except LearnError LearningDelta)

/-- A batch that waits for its files. -/
structure WaitingBatch where
  slot : Nat
  projectId : String
  project : OpenProject
  task : LearningTask

structure Scheduler where
  slots : List (String × Slot)
  /-- Projects that wait for a worker. -/
  tickets : List String
  waiting : List WaitingBatch
  /-- Whether workers wait before they read files. -/
  isHeld : Bool
  isStopped : Bool
  nextSlot : Nat

def Scheduler.start : Scheduler := ⟨[], [], [], false, false, 0⟩

structure Service where
  options : ServiceOptions
  settings : Settings
  host : Host
  /-- The number of the portfolio. -/
  portfolioNumber : Nat
  projects : List (String × OpenProject)
  /-- The stores that syncs read. -/
  attached : List (String × Nat)
  /-- Projects that are being synced. -/
  syncing : List String
  scheduler : Scheduler

/-- An action of a service. -/
abbrev ServiceM := ExceptT Report (StateM Service)

namespace Service

def loadSettings (host : Host) (options : ServiceOptions) : Except ConfigError Settings :=
  match options.configText, options.configRoot with
  | some source, _ => Settings.ofToml source
  | none, some root => Settings.load host.files host.environment root none
  | none, none => .ok .unset

/-- Open the portfolio where the options and settings place it. -/
def openPortfolio (host : Host) (options : ServiceOptions) (settings : Settings) :
    Except Report (Host × Nat) :=
  match options.placement with
  | .inMemory => .ok host.newPortfolio
  | .onDisk directory =>
    match directory.or (settings.globalDirectory host.environment) with
    | some directory =>
      (host.openPortfolio directory).mapError fun e => .ofError (.storage e)
    | none =>
      .error ⟨"CONFIG_ERROR", "no global directory configured and no home directory found", false⟩

def start (host : Host) (options : ServiceOptions) : Except Report Service := do
  let settings ← (loadSettings host options).mapError fun e => .ofError (.config e)
  let (host, portfolioNumber) ← openPortfolio host options settings
  return {
    options
    settings
    host
    portfolioNumber
    projects := []
    attached := []
    syncing := []
    scheduler := .start }

def portfolio (service : Service) : Portfolio :=
  service.host.databases.portfolio service.portfolioNumber

def withPortfolio (service : Service) (portfolio : Portfolio) : Service :=
  { service with
    host.databases := service.host.databases.putPortfolio service.portfolioNumber portfolio }

def store (service : Service) (number : Nat) : PatternStore :=
  service.host.databases.store number

def withStore (service : Service) (number : Nat) (store : PatternStore) : Service :=
  { service with host.databases := service.host.databases.putStore number store }

def announceAll (service : Service) (events : List Event) : Service :=
  { service with host := service.host.announceAll events }

def attempts (service : Service) : Nat := service.settings.aggregation.attempts

/-- What learning needs to know of the settings. -/
def learningPolicy (service : Service) : LearningPolicy where
  threshold := service.settings.learning.threshold
  examples := service.settings.learning.examples
  batchFiles := service.settings.workers.batchFiles
  confidence := service.settings.learning.confidencePolicy

/-- The files below a path. -/
def sources (service : Service) (path : String) : Sources where
  read := readSource service.host.files (Path.namesOf path) service.settings.learning.fileSize
  extract := service.options.extract

/-! ## Actions -/

/-- The outcome of a step that may fail. -/
def orFail {ε α : Type} (wrap : ε → OperationError) : Except ε α → ServiceM α
  | .ok value => pure value
  | .error error => throw (.ofError (wrap error))

/-- Make a project's store ready for syncs and its queue ready for changes. -/
def enroll (service : Service) (id : String) (project : OpenProject) : Service :=
  let slot : Slot := ⟨service.scheduler.nextSlot, project, .empty, false, []⟩
  { service with
    projects := putKeyed id project service.projects
    attached := putKeyed id project.store service.attached
    scheduler.slots := putKeyed id slot service.scheduler.slots
    scheduler.nextSlot := service.scheduler.nextSlot + 1 }

/-- Open a store for the project at a path. -/
def openStore (service : Service) (path : String) : Except StorageError (Service × Nat) :=
  match service.options.placement with
  | .inMemory =>
    let (host, number) := service.host.newStore
    .ok ({ service with host }, number)
  | .onDisk _ => (service.host.openStore path).map fun (host, number) =>
    ({ service with host }, number)

/-- The open store of a project. The project is opened at its first use, and must be
active then. -/
def project (id : String) : ServiceM OpenProject := do
  let service ← get
  match service.projects.lookup id with
  | some project => return project
  | none =>
    match ← orFail .registry (service.portfolio.findProject id) with
    | none => throw (.unknownProject id)
    | some row =>
      if !row.isActive then throw (.inactiveProject id)
      let (service, number) ← orFail .storage (service.openStore row.path)
      let project : OpenProject := ⟨number, row.path⟩
      set (service.enroll id project)
      return project

/-- Close a project, drop its queued changes, and tell whether it was open. -/
def release (id : String) : ServiceM Bool := do
  let service ← get
  set { service with
    projects := eraseKeyed id service.projects
    attached := eraseKeyed id service.attached
    scheduler.slots := eraseKeyed id service.scheduler.slots }
  return hasKey id service.projects

end Service

end HouseStyle
