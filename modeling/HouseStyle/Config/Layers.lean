import HouseStyle.Config.Settings
import HouseStyle.Files
import HouseStyle.Word

/-!
# Layers of settings

Settings come, from the lowest layer up, from the user's file, the project's file,
environment variables and the command line. A variable that cannot be read as its
setting is ignored.
-/

namespace HouseStyle

/-- The environment: the home directory and other variables. -/
structure Environment where
  home : Option String
  entries : List (String × String)
  deriving Repr, Inhabited

/-- Settings given on the command line. -/
structure CommandLine where
  workerThreads : Option Nat
  highThreshold : Option Float
  mediumThreshold : Option Float
  maxFileSize : Option Nat

namespace Settings

/-- The directory that holds data, in the home directory and in every project. -/
def dataDirectory : String := ".canon"

def projectFile : String := "canon.toml"

def joinPath (directory name : String) : String :=
  if directory.isEmpty then name
  else if directory.toList.getLast? = some '/' then directory ++ name
  else directory ++ "/" ++ name

def userDirectory (environment : Environment) : Option String :=
  environment.home.map fun home => joinPath home dataDirectory

/-- Where the global database is kept: in the configured directory, or else in the user's. -/
def globalDirectory (settings : Settings) (environment : Environment) : Option String :=
  settings.storage.globalDir.or (userDirectory environment)

/-- The settings in a file. A file that cannot be read counts as not found. -/
def ofFile (tree : FileNode) (path : String) : Except ConfigError Settings :=
  match tree.readText (Path.namesOf path) with
  | .ok source => ofText path source
  | .error _ => .error (.fileNotFound path)

/-- The user's settings. A file that cannot be read is passed over, one with mistakes not. -/
def userLayer (tree : FileNode) (environment : Environment) : Except ConfigError Settings :=
  match userDirectory environment with
  | none => .ok unset
  | some directory =>
    match ofFile tree (joinPath directory "config.toml") with
    | .error (.parse path) => .error (.parse path)
    | .error _ => .ok unset
    | .ok settings => .ok settings

def projectLayer (tree : FileNode) (root : String) : Except ConfigError Settings :=
  let path := joinPath root projectFile
  if tree.exists? (Path.namesOf path) then ofFile tree path else .ok unset

def environmentLayer (environment : Environment) : Settings :=
  let valueOf (name : String) := environment.entries.lookup name
  { unset with
    learning := { LearningSettings.unset with
      maxFileSize := (valueOf "CANON_LEARNING_MAX_FILE_SIZE").bind (Decimal.readNat? Word.bound)
      relearnThreshold := (valueOf "CANON_LEARNING_RELEARN_THRESHOLD").bind Decimal.readLoose? }
    detection := { DetectionSettings.unset with
      highThreshold := (valueOf "CANON_DETECTION_HIGH_THRESHOLD").bind Decimal.readLoose?
      mediumThreshold := (valueOf "CANON_DETECTION_MEDIUM_THRESHOLD").bind Decimal.readLoose? }
    workers := { WorkerSettings.unset with
      threads := (valueOf "CANON_WORKER_THREADS").bind (Decimal.readNat? Word.bound) }
    storage := { StorageSettings.unset with
      globalDir := valueOf "CANON_STORAGE_GLOBAL_DIR" } }

def commandLineLayer (arguments : CommandLine) : Settings :=
  { unset with
    learning := { LearningSettings.unset with maxFileSize := arguments.maxFileSize }
    detection := { DetectionSettings.unset with
      highThreshold := arguments.highThreshold
      mediumThreshold := arguments.mediumThreshold }
    workers := { WorkerSettings.unset with threads := arguments.workerThreads } }

/-- The validated settings of all layers. -/
def load (tree : FileNode) (environment : Environment) (root : String)
    (arguments : Option CommandLine) : Except ConfigError Settings := do
  let user ← userLayer tree environment
  let project ← projectLayer tree root
  let layers := [user, project, environmentLayer environment] ++
    (arguments.map commandLineLayer).toList
  let settings := layers.foldl override unset
  settings.validate
  return settings

end Settings

end HouseStyle
