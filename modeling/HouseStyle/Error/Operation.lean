import HouseStyle.Error.Storage
import HouseStyle.Json.Basic

/-!
# Errors of the operations

One type for each activity: extraction, learning, checking, syncing, registering and
configuring. `OperationError` is any of them. A report carries the code, the words,
and whether the same call may succeed when tried again.
-/

namespace HouseStyle

inductive ExtractionError where
  | readFailed (path message : String)
  | tooLarge (path : String) (size limit : Nat)
  | failed (path message : String)
  | unavailable (collaborator message : String)
  | dimensionMismatch (expected actual : Nat)
  deriving DecidableEq, Repr, Inhabited

namespace ExtractionError

def message : ExtractionError → String
  | readFailed path message => "Failed to read " ++ path ++ ": " ++ message
  | tooLarge path size limit =>
    "File too large: " ++ path ++ " (" ++ toString size ++ " bytes, max " ++ toString limit ++ ")"
  | failed path message => "Extraction failed for " ++ path ++ ": " ++ message
  | unavailable collaborator message =>
    "Collaborator " ++ collaborator ++ " unavailable: " ++ message
  | dimensionMismatch expected actual =>
    "Embedding dimension mismatch: expected " ++ toString expected ++ ", got " ++ toString actual

def code : ExtractionError → String
  | unavailable .. => "COLLABORATOR_UNAVAILABLE"
  | _ => "EXTRACTION_ERROR"

end ExtractionError

inductive LearnError where
  | invalidBatch (reason : String)
  | mergeFailed (precedingVersion : Nat) (source : StorageError)
  | storage (source : StorageError)
  | cancelled
  deriving DecidableEq, Repr, Inhabited

namespace LearnError

def message : LearnError → String
  | invalidBatch reason => "Invalid change batch: " ++ reason
  | mergeFailed version source =>
    "Merge failed at version " ++ toString version ++ ": " ++ source.message
  | storage source => "Storage error: " ++ source.message
  | cancelled => "Learning cancelled"

def code : LearnError → String
  | invalidBatch _ => "INVALID_INPUT"
  | mergeFailed _ (.versionConflict ..) => "CONSISTENCY_VIOLATION"
  | mergeFailed .. => "MERGE_FAILED"
  | storage source => source.code
  | cancelled => "CANCELLED"

def isRetryable : LearnError → Bool
  | mergeFailed _ source | storage source => source.isBusy
  | _ => false

end LearnError

inductive DetectionError where
  | invalidInput (message : String)
  | invalidGlob (glob message : String)
  | storage (source : StorageError)
  deriving DecidableEq, Repr, Inhabited

namespace DetectionError

def message : DetectionError → String
  | invalidInput message => "Invalid input: " ++ message
  | invalidGlob glob message => "Invalid scope glob '" ++ glob ++ "': " ++ message
  | storage source => "Storage error: " ++ source.message

def code : DetectionError → String
  | invalidInput _ => "INVALID_INPUT"
  | invalidGlob .. => "INVALID_GLOB"
  | storage source => source.code

end DetectionError

inductive SyncError where
  | inProgress (project : String)
  | unknownProject (project : String)
  | inactive (project : String)
  | interrupted (project : String) (checkpoint : Nat) (source : StorageError)
  | storeBehind (project : String) (storeVersion checkpoint : Nat)
  | storage (source : StorageError)
  deriving DecidableEq, Repr, Inhabited

namespace SyncError

def message : SyncError → String
  | inProgress project => "Sync already in progress for project " ++ project
  | unknownProject project => "Unknown project: " ++ project
  | inactive project => "Project " ++ project ++ " is not active"
  | interrupted project checkpoint source =>
    "Sync of " ++ project ++ " interrupted at checkpoint " ++ toString checkpoint ++ ": " ++
      source.message
  | storeBehind project version checkpoint =>
    "Store of " ++ project ++ " is at version " ++ toString version ++
      ", behind sync checkpoint " ++ toString checkpoint
  | storage source => "Storage error: " ++ source.message

def code : SyncError → String
  | inProgress _ => "SYNC_IN_PROGRESS"
  | unknownProject _ => "UNKNOWN_PROJECT"
  | inactive _ => "PROJECT_INACTIVE"
  | interrupted .. => "SYNC_FAILED"
  | storeBehind .. => "CONSISTENCY_VIOLATION"
  | storage source => source.code

def isRetryable : SyncError → Bool
  | inProgress _ | interrupted .. => true
  | storage source => source.isBusy
  | _ => false

end SyncError

inductive RegistryError where
  | unknownProject (project : String)
  | invalidPath (path reason : String)
  | storage (source : StorageError)
  deriving DecidableEq, Repr, Inhabited

namespace RegistryError

def message : RegistryError → String
  | unknownProject project => "Unknown project: " ++ project
  | invalidPath path reason => "Invalid project path '" ++ path ++ "': " ++ reason
  | storage source => "Storage error: " ++ source.message

def code : RegistryError → String
  | unknownProject _ => "UNKNOWN_PROJECT"
  | invalidPath .. => "INVALID_INPUT"
  | storage source => source.code

end RegistryError

inductive ConfigError where
  | fileNotFound (path : String)
  | parse (path : String)
  | validation (field message : String)
  deriving DecidableEq, Repr, Inhabited

namespace ConfigError

def message : ConfigError → String
  | fileNotFound path => "Config file not found: " ++ path
  | parse path => "Config parse error in " ++ path
  | validation field message => "Config validation failed for " ++ field ++ ": " ++ message

def code (_ : ConfigError) : String := "CONFIG_ERROR"

end ConfigError

/-- An error of any activity. -/
inductive OperationError where
  | storage (error : StorageError)
  | extraction (error : ExtractionError)
  | learn (error : LearnError)
  | detection (error : DetectionError)
  | sync (error : SyncError)
  | registry (error : RegistryError)
  | config (error : ConfigError)
  deriving DecidableEq, Repr, Inhabited

namespace OperationError

def code : OperationError → String
  | storage e => e.code
  | extraction e => e.code
  | learn e => e.code
  | detection e => e.code
  | sync e => e.code
  | registry e => e.code
  | config e => e.code

/-- The words of the activity's own error. -/
def ownMessage : OperationError → String
  | storage e => e.message
  | extraction e => e.message
  | learn e => e.message
  | detection e => e.message
  | sync e => e.message
  | registry e => e.message
  | config e => e.message

def activity : OperationError → String
  | storage _ => "Storage"
  | extraction _ => "Extraction"
  | learn _ => "Learning"
  | detection _ => "Detection"
  | sync _ => "Sync"
  | registry _ => "Registry"
  | config _ => "Configuration"

/-- The words with the activity in front. -/
def message (error : OperationError) : String :=
  error.activity ++ " error: " ++ error.ownMessage

def isRetryable : OperationError → Bool
  | storage e => e.isBusy
  | learn e => e.isRetryable
  | sync e => e.isRetryable
  | extraction _ | detection _ | registry _ | config _ => false

end OperationError

/-- What a caller is told about a failure. -/
structure Report where
  code : String
  message : String
  retryable : Bool
  deriving DecidableEq, Repr, Inhabited

namespace Report

def invalidInput (message : String) : Report := ⟨"INVALID_INPUT", message, false⟩

def unknownProject (project : String) : Report :=
  ⟨"UNKNOWN_PROJECT", "Unknown project: " ++ project, false⟩

def inactiveProject (project : String) : Report :=
  ⟨"PROJECT_INACTIVE", "Project " ++ project ++ " is not active", false⟩

/-- The report of an error as the activity words it. -/
def ofError (error : OperationError) : Report :=
  ⟨error.code, error.ownMessage, error.isRetryable⟩

/-- The report of an error with its activity named. -/
def ofNamedError (error : OperationError) : Report :=
  ⟨error.code, error.message, error.isRetryable⟩

/-- The report as it is written to a caller. -/
def toJson (report : Report) : Json :=
  .object [
    ("error", .text report.code),
    ("message", .text report.message),
    ("retryable", .bool report.retryable)]

/-- The code in brackets and the words. -/
def display (report : Report) : String := "[" ++ report.code ++ "] " ++ report.message

end Report

end HouseStyle
