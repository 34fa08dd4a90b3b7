import HouseStyle.Config.Layers
import HouseStyle.Proofs.Config.Given

/-!
# Every setting comes from the highest layer that sets it

A layer is known by the values that it gives. A layer above another hides its values, setting by
setting, so that the layers together give each setting the value of the highest one that has any.
This is what is loaded, if there is no mistake in it, whatever may be wrong with a layer by itself.
-/

namespace HouseStyle

/-! ## What the layers give -/

/-- The values of the variables that can be read. -/
def Environment.given (environment : Environment) : SettingValues
  | _, .threads =>
    (environment.entries.lookup "CANON_WORKER_THREADS").bind (Decimal.readNat? Word.bound)
  | _, .highThreshold =>
    (environment.entries.lookup "CANON_DETECTION_HIGH_THRESHOLD").bind Decimal.readLoose?
  | _, .mediumThreshold =>
    (environment.entries.lookup "CANON_DETECTION_MEDIUM_THRESHOLD").bind Decimal.readLoose?
  | _, .maxFileSize =>
    (environment.entries.lookup "CANON_LEARNING_MAX_FILE_SIZE").bind (Decimal.readNat? Word.bound)
  | _, .relearnThreshold =>
    (environment.entries.lookup "CANON_LEARNING_RELEARN_THRESHOLD").bind Decimal.readLoose?
  | _, .globalDir => environment.entries.lookup "CANON_STORAGE_GLOBAL_DIR"
  | _, _ => none

def CommandLine.given (arguments : CommandLine) : SettingValues
  | _, .threads => arguments.workerThreads
  | _, .highThreshold => arguments.highThreshold
  | _, .mediumThreshold => arguments.mediumThreshold
  | _, .maxFileSize => arguments.maxFileSize
  | _, _ => none

namespace Settings

/-- What a file gives: nothing when it is not there, and otherwise what its document does. The
document has to be well-typed. -/
inductive FileGives (tree : FileNode) : Option String → SettingValues → Prop where
  | absent {path : Option String} (missing : ∀ p ∈ path, tree.exists? (Path.namesOf p) = false) :
    FileGives tree path fun _ _ => none
  | document {path text : String} {document : Json} {settings : Settings}
    (read : tree.readText (Path.namesOf path) = .ok text)
    (parsed : Toml.parse? text = some document)
    (typed : ofDocument? document = some settings) :
    FileGives tree (some path) (given document)

/-- The user's file, when there is a home directory. -/
def userFile (environment : Environment) : Option String :=
  (userDirectory environment).map fun directory => joinPath directory "config.toml"

/-- For each setting the value of the highest layer that gives one. -/
def layered (user project : SettingValues) (environment : Environment)
    (arguments : Option CommandLine) : SettingValues := fun form setting =>
  (arguments.bind fun arguments => arguments.given form setting)
    |>.or (environment.given form setting)
    |>.or (project form setting)
    |>.or (user form setting)

/-- Settings, unless there is a mistake in them. -/
def validated (s : Settings) : Except ConfigError Settings :=
  match s.validate with
  | .ok _ => .ok s
  | .error mistake => .error mistake

lemma validated_of_isOk {s : Settings} (h : s.validate.isOk = true) : s.validated = .ok s := by
  unfold validated
  split
  · rfl
  · next mistake herror =>
    rw [herror] at h
    cases h

/-! ## Layers -/

lemma get_unset : unset.get = fun _ _ => none := by
  funext form setting
  cases setting <;> rfl

/-- A layer hides the values of the one below, setting by setting. -/
lemma get_override (lower upper : Settings) :
    (lower.override upper).get = fun form setting =>
      (upper.get form setting).or (lower.get form setting) := by
  funext form setting
  cases setting <;> rfl

lemma get_environmentLayer (environment : Environment) :
    (environmentLayer environment).get = environment.given := by
  funext form setting
  cases setting <;> rfl

lemma get_commandLineLayer (arguments : CommandLine) :
    (commandLineLayer arguments).get = arguments.given := by
  funext form setting
  cases setting <;> rfl

/-- The layers together give what the highest of them gives. -/
lemma get_layers (user project : Settings) (environment : Environment)
    (arguments : Option CommandLine) :
    (([user, project, environmentLayer environment] ++
      (arguments.map commandLineLayer).toList).foldl override unset).get =
      layered user.get project.get environment arguments := by
  funext form setting
  cases arguments <;>
    simp [get_override, get_environmentLayer, get_commandLineLayer, get_unset, layered,
      Option.or_assoc]

/-! ## Files -/

variable {tree : FileNode} {environment : Environment} {root : String} {values : SettingValues}

lemma ofFile_missing {path : String} (missing : tree.exists? (Path.namesOf path) = false) :
    ofFile tree path = .error (.fileNotFound path) := by
  cases hfound : tree.find (Path.namesOf path) with
  | ok node => simp [FileNode.exists?, hfound] at missing
  | error failure => simp [ofFile, FileNode.readText, hfound, bind, Except.bind]

lemma ofFile_document {path text : String} {document : Json} {settings : Settings}
    (read : tree.readText (Path.namesOf path) = .ok text)
    (parsed : Toml.parse? text = some document)
    (typed : ofDocument? document = some settings) : ofFile tree path = .ok settings := by
  simp [ofFile, ofText, read, parsed, typed]

lemma exists_of_readText {place : List String} {text : String}
    (read : tree.readText place = .ok text) : tree.exists? place = true := by
  cases hfound : tree.find place with
  | ok node => simp [FileNode.exists?, hfound]
  | error failure => simp [FileNode.readText, hfound, bind, Except.bind] at read

/-- The user's layer is what the user's file gives. -/
lemma userLayer_gives (h : FileGives tree (userFile environment) values) :
    ∃ layer, userLayer tree environment = .ok layer ∧ layer.get = values := by
  unfold userLayer
  unfold userFile at h
  cases hdirectory : userDirectory environment with
  | none =>
    rw [hdirectory] at h
    cases h
    exact ⟨unset, rfl, get_unset⟩
  | some directory =>
    rw [hdirectory] at h
    cases h with
    | absent missing =>
      simp only [ofFile_missing (missing _ rfl)]
      exact ⟨unset, rfl, get_unset⟩
    | document read parsed typed =>
      simp only [ofFile_document read parsed typed]
      exact ⟨_, rfl, get_of_document typed⟩

lemma projectLayer_gives (h : FileGives tree (some (joinPath root projectFile)) values) :
    ∃ layer, projectLayer tree root = .ok layer ∧ layer.get = values := by
  unfold projectLayer
  cases h with
  | absent missing =>
    simp only [missing _ rfl]
    exact ⟨unset, rfl, get_unset⟩
  | document read parsed typed =>
    simp only [exists_of_readText read, ofFile_document read parsed typed]
    exact ⟨_, rfl, get_of_document typed⟩

/-- What is loaded has for each setting the value of the highest layer that gives one. Only these
settings are validated, and not the layers that they are from. -/
theorem load_layered {user project : SettingValues} (arguments : Option CommandLine)
    (huser : FileGives tree (userFile environment) user)
    (hproject : FileGives tree (some (joinPath root projectFile)) project) :
    load tree environment root arguments =
        (ofValues (layered user project environment arguments)).validated ∧
      (ofValues (layered user project environment arguments)).get =
        layered user project environment arguments := by
  obtain ⟨userSettings, huserLayer, rfl⟩ := userLayer_gives huser
  obtain ⟨projectSettings, hprojectLayer, rfl⟩ := projectLayer_gives hproject
  refine ⟨?_, get_ofValues _⟩
  rw [← get_layers, ofValues_get]
  simp only [load, huserLayer, hprojectLayer, bind, Except.bind, validated]
  generalize List.foldl override unset _ = settings
  cases settings.validate <;> rfl

/-! ## An instance -/

/-- A layer that would not pass by itself, nor would the one above. -/
def sampleUserText : String := "[workers]\nthreads = 0\nqueue_capacity = 9\n"

def sampleProjectText : String := "[learning]\nmax_file_size = 0\n[workers]\nthreads = 0\n"

def sampleFiles : FileNode := .directory [
  ("home", .directory [(".canon", .directory [("config.toml", .text sampleUserText)])]),
  ("project", .directory [("canon.toml", .text sampleProjectText)])]

def sampleEnvironment : Environment :=
  ⟨some "/home", [("CANON_WORKER_THREADS", "3"), ("CANON_LEARNING_MAX_FILE_SIZE", "large")]⟩

def sampleArguments : CommandLine := ⟨none, none, none, some 7⟩

/-- The values in a text, as far as it can be read. -/
def valuesOf (text : String) : SettingValues := given ((Toml.parse? text).getD .null)

lemma fileGives_of_text {path text : String} (read : tree.readText (Path.namesOf path) = .ok text)
    (typed : ((Toml.parse? text).bind ofDocument?).isSome = true) :
    FileGives tree (some path) (valuesOf text) := by
  obtain ⟨settings, h⟩ := Option.isSome_iff_exists.mp typed
  obtain ⟨document, parsed, typed⟩ := Option.bind_eq_some_iff.mp h
  have hvalues : valuesOf text = given document := by simp only [valuesOf, parsed, Option.getD_some]
  exact hvalues ▸ .document read parsed typed

def sampleSettings : Settings :=
  ofValues (layered (valuesOf sampleUserText) (valuesOf sampleProjectText) sampleEnvironment
    (some sampleArguments))

theorem sampleFiles_layered :
    FileGives sampleFiles (userFile sampleEnvironment) (valuesOf sampleUserText) ∧
      FileGives sampleFiles (some (joinPath "/project" projectFile)) (valuesOf sampleProjectText) ∧
      (ofValues (valuesOf sampleUserText)).validate.isOk = false ∧
      (ofValues (valuesOf sampleProjectText)).validate.isOk = false ∧
      load sampleFiles sampleEnvironment "/project" (some sampleArguments) = .ok sampleSettings ∧
      sampleSettings.workers.threads = some 3 ∧
      sampleSettings.workers.queueCapacity = some 9 ∧
      sampleSettings.learning.maxFileSize = some 7 := by
  have huser : FileGives sampleFiles (userFile sampleEnvironment) (valuesOf sampleUserText) :=
    fileGives_of_text rfl (by decide +kernel)
  have hproject : FileGives sampleFiles (some (joinPath "/project" projectFile))
      (valuesOf sampleProjectText) := fileGives_of_text rfl (by decide +kernel)
  have hload := (load_layered (some sampleArguments) huser hproject).1
  have hvalid : sampleSettings.validated = .ok sampleSettings :=
    validated_of_isOk (by decide +kernel)
  exact ⟨huser, hproject, by decide +kernel, by decide +kernel, hload.trans hvalid,
    by decide +kernel, by decide +kernel, by decide +kernel⟩

end Settings

end HouseStyle
