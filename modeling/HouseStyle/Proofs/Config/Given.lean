import HouseStyle.Config.Settings
import Mathlib.Data.List.Nodup

/-!
# What a document sets

Each of the twenty settings has a place in a document: a key in a section. A document that can be
read as settings sets exactly what stands at these places, and leaves the other settings open.
-/

namespace HouseStyle

/-! ## The twenty settings -/

/-- What the value of a setting is. -/
inductive SettingForm where
  | word32
  | word64
  | real
  | flag
  | text

def SettingForm.Value : SettingForm → Type
  | .word32 | .word64 => Nat
  | .real => Float
  | .flag => Bool
  | .text => String

def SettingForm.decode? : (form : SettingForm) → Json → Option form.Value
  | .word32 => Json.asWord32?
  | .word64 => Json.asWord64?
  | .real => Json.asReal?
  | .flag => Json.asBool?
  | .text => Json.asText?

inductive SettingGroup where
  | learning
  | detection
  | aggregation
  | workers
  | storage

namespace SettingGroup

def names : List String := ["learning", "detection", "aggregation", "workers", "storage"]

def name : SettingGroup → String
  | learning => "learning"
  | detection => "detection"
  | aggregation => "aggregation"
  | workers => "workers"
  | storage => "storage"

def keys : SettingGroup → List String
  | learning => ["max_examples", "recency_window_days", "recency_bonus", "relearn_threshold",
      "max_file_size", "parallel_extraction"]
  | detection => ["high_threshold", "medium_threshold", "penalty_high", "penalty_medium",
      "penalty_low", "glob_cache_capacity"]
  | aggregation => ["cas_max_attempts", "top_languages", "default_limit"]
  | workers => ["threads", "queue_capacity", "max_batch_files"]
  | storage => ["read_pool_size", "global_dir"]

end SettingGroup

inductive Setting : SettingForm → Type where
  | maxExamples : Setting .word64
  | recencyWindowDays : Setting .word32
  | recencyBonus : Setting .real
  | relearnThreshold : Setting .real
  | maxFileSize : Setting .word64
  | parallelExtraction : Setting .flag
  | highThreshold : Setting .real
  | mediumThreshold : Setting .real
  | penaltyHigh : Setting .word32
  | penaltyMedium : Setting .word32
  | penaltyLow : Setting .word32
  | globCacheCapacity : Setting .word64
  | casMaxAttempts : Setting .word32
  | topLanguages : Setting .word64
  | defaultLimit : Setting .word64
  | threads : Setting .word64
  | queueCapacity : Setting .word64
  | maxBatchFiles : Setting .word64
  | readPoolSize : Setting .word64
  | globalDir : Setting .text

namespace Setting

variable {form : SettingForm}

/-- The section and the key under which a document holds a setting. -/
def place : Setting form → SettingGroup × String
  | maxExamples => (.learning, "max_examples")
  | recencyWindowDays => (.learning, "recency_window_days")
  | recencyBonus => (.learning, "recency_bonus")
  | relearnThreshold => (.learning, "relearn_threshold")
  | maxFileSize => (.learning, "max_file_size")
  | parallelExtraction => (.learning, "parallel_extraction")
  | highThreshold => (.detection, "high_threshold")
  | mediumThreshold => (.detection, "medium_threshold")
  | penaltyHigh => (.detection, "penalty_high")
  | penaltyMedium => (.detection, "penalty_medium")
  | penaltyLow => (.detection, "penalty_low")
  | globCacheCapacity => (.detection, "glob_cache_capacity")
  | casMaxAttempts => (.aggregation, "cas_max_attempts")
  | topLanguages => (.aggregation, "top_languages")
  | defaultLimit => (.aggregation, "default_limit")
  | threads => (.workers, "threads")
  | queueCapacity => (.workers, "queue_capacity")
  | maxBatchFiles => (.workers, "max_batch_files")
  | readPoolSize => (.storage, "read_pool_size")
  | globalDir => (.storage, "global_dir")

end Setting

/-- A value for every setting that is not left open. -/
def SettingValues : Type := (form : SettingForm) → Setting form → Option form.Value

namespace Settings

def get (s : Settings) : SettingValues
  | _, .maxExamples => s.learning.maxExamples
  | _, .recencyWindowDays => s.learning.recencyWindowDays
  | _, .recencyBonus => s.learning.recencyBonus
  | _, .relearnThreshold => s.learning.relearnThreshold
  | _, .maxFileSize => s.learning.maxFileSize
  | _, .parallelExtraction => s.learning.parallelExtraction
  | _, .highThreshold => s.detection.highThreshold
  | _, .mediumThreshold => s.detection.mediumThreshold
  | _, .penaltyHigh => s.detection.penaltyHigh
  | _, .penaltyMedium => s.detection.penaltyMedium
  | _, .penaltyLow => s.detection.penaltyLow
  | _, .globCacheCapacity => s.detection.globCacheCapacity
  | _, .casMaxAttempts => s.aggregation.casMaxAttempts
  | _, .topLanguages => s.aggregation.topLanguages
  | _, .defaultLimit => s.aggregation.defaultLimit
  | _, .threads => s.workers.threads
  | _, .queueCapacity => s.workers.queueCapacity
  | _, .maxBatchFiles => s.workers.maxBatchFiles
  | _, .readPoolSize => s.storage.readPoolSize
  | _, .globalDir => s.storage.globalDir

/-- The settings with given values. -/
def ofValues (values : SettingValues) : Settings where
  learning := ⟨values _ .maxExamples, values _ .recencyWindowDays, values _ .recencyBonus,
    values _ .relearnThreshold, values _ .maxFileSize, values _ .parallelExtraction⟩
  detection := ⟨values _ .highThreshold, values _ .mediumThreshold, values _ .penaltyHigh,
    values _ .penaltyMedium, values _ .penaltyLow, values _ .globCacheCapacity⟩
  aggregation := ⟨values _ .casMaxAttempts, values _ .topLanguages, values _ .defaultLimit⟩
  workers := ⟨values _ .threads, values _ .queueCapacity, values _ .maxBatchFiles⟩
  storage := ⟨values _ .readPoolSize, values _ .globalDir⟩

/-- Settings are made of the values of all twenty. -/
lemma ofValues_get (s : Settings) : ofValues s.get = s := rfl

lemma get_ofValues (values : SettingValues) : (ofValues values).get = values := by
  funext form setting
  cases setting <;> rfl

/-! ## Members of a record -/

/-- A record by its names. A list holds the values of the first names, in order. -/
def members (names : List String) : Json → List (String × Json)
  | .object fields => fields
  | .list items => names.zip items
  | _ => []

def member? (names : List String) (name : String) (value : Json) : Option Json :=
  (members names value).lookup name

/-- The first of the fields with a key. -/
lemma lookup_eq_filter (fields : List (String × Json)) (key : String) :
    fields.lookup key = ((fields.filter (·.1 == key)).map (·.2)).head? := by
  induction fields with
  | nil => rfl
  | cons field fields ih =>
    obtain ⟨name, value⟩ := field
    by_cases hkey : name = key
    · simp [hkey]
    · have hkey' : (key == name) = false := beq_false_of_ne (Ne.symm hkey)
      simp only [List.lookup_cons, hkey', ih, List.filter_cons, beq_false_of_ne hkey,
        Bool.false_eq_true, if_false]

lemma fieldOf?_eq {fields : List (String × Json)} {key : String} {found : Option Json}
    (h : Json.fieldOf? fields key .defaulted = some found) : found = fields.lookup key := by
  rw [lookup_eq_filter]
  unfold Json.fieldOf? at h
  split at h
  · next hnone => simpa [hnone] using h.symm
  · next hone => simpa [hone] using h.symm
  · cases h

/-- The fields of an object that may all be left out. -/
lemma record?_object {names : List String} {fields : List (String × Json)}
    {found : List (Option Json)}
    (h : Json.record? (names.map fun name => (name, .defaulted)) (.object fields) = some found) :
    found = names.map fun name => fields.lookup name := by
  simp only [Json.record?] at h
  induction names generalizing found with
  | nil => simpa using h.symm
  | cons name names ih =>
    simp only [List.map_cons, List.mapM_cons, Option.bind_eq_bind, Option.bind_eq_some_iff] at h
    obtain ⟨first, hfirst, others, hothers, hfound⟩ := h
    cases hfound
    rw [fieldOf?_eq hfirst, ih hothers, List.map_cons]

/-- The fields of a list that may all be left out. -/
lemma positions?_eq {names : List String} (nodup : names.Nodup) {items : List Json}
    {found : List (Option Json)}
    (h : Json.positions? (names.map fun name => (name, .defaulted)) (items.take names.length) =
      some found) : found = names.map fun name => (names.zip items).lookup name := by
  induction names generalizing items found with
  | nil => simpa [Json.positions?] using h.symm
  | cons name names ih =>
    obtain ⟨hname, hnames⟩ := List.nodup_cons.mp nodup
    cases items with
    | nil =>
      simp only [List.map_cons, List.take_nil, Json.positions?, if_true,
        Option.map_eq_some_iff] at h
      obtain ⟨others, hothers, rfl⟩ := h
      have hnil : others = names.map fun name => (names.zip []).lookup name :=
        ih hnames (by rwa [List.take_nil])
      simp [hnil]
    | cons item items =>
      simp only [List.map_cons, List.length_cons, List.take_succ_cons, Json.positions?,
        Option.map_eq_some_iff] at h
      obtain ⟨others, hothers, rfl⟩ := h
      have hskip : ∀ other ∈ names,
          (names.zip items).lookup other = ((name, item) :: names.zip items).lookup other := by
        intro other hother
        have hne : (other == name) = false := beq_false_of_ne (ne_of_mem_of_not_mem hother hname)
        simp only [List.lookup_cons, hne]
      rw [ih hnames hothers, List.map_congr_left hskip]
      simp

/-- The fields of a section are what its names stand for. -/
lemma fieldsOf?_eq {names : List String} (nodup : names.Nodup) {value : Json}
    {found : List (Option Json)} (h : fieldsOf? names value = some found) :
    found = names.map fun name => member? names name value := by
  cases value with
  | object fields => exact record?_object h
  | list items => exact positions?_eq nodup h
  | _ => cases h

lemma optional?_eq {α : Type} {decode : Json → Option α} (null : decode .null = none)
    {field : Option Json} {found : Option α} (h : optional? decode field = some found) :
    found = field.bind decode := by
  cases field with
  | none => exact (Option.some.inj h).symm
  | some value =>
    cases value with
    | null => rw [Option.bind_some, null]; exact (Option.some.inj h).symm
    | _ =>
      obtain ⟨read, hread, rfl⟩ := Option.map_eq_some_iff.mp h
      exact hread.symm

/-! ## Sections -/

/-- A section that is left out is read as one with no members. -/
lemma section_eq {names : List String} {σ : Type} {unset s : σ} {decode : Json → Option σ}
    {read : List (Option Json) → Option σ} {field : Option Json}
    (h : Json.orElse? unset decode field = some s)
    (split : ∀ value, decode value = (fieldsOf? names value).bind read)
    (empty : read (names.map fun _ => none) = some unset) (nodup : names.Nodup) :
    read (names.map fun name => field.bind (member? names name)) = some s := by
  cases field with
  | none => exact empty.trans h
  | some value =>
    obtain ⟨fields, hfields, hread⟩ := Option.bind_eq_some_iff.mp ((split value).symm.trans h)
    rwa [fieldsOf?_eq nodup hfields] at hread

lemma learning_eq {field : Option Json} {s : LearningSettings}
    (h : Json.orElse? .unset learning? field = some s) :
    let at? := fun key => field.bind (member? SettingGroup.learning.keys key)
    s = ⟨(at? "max_examples").bind Json.asWord64?, (at? "recency_window_days").bind Json.asWord32?,
      (at? "recency_bonus").bind Json.asReal?, (at? "relearn_threshold").bind Json.asReal?,
      (at? "max_file_size").bind Json.asWord64?,
      (at? "parallel_extraction").bind Json.asBool?⟩ := by
  have hread := section_eq h (fun _ => rfl) rfl (by decide)
  simp only [List.map_cons, List.map_nil, Option.bind_eq_bind, Option.bind_eq_some_iff,
    Option.some.injEq] at hread
  obtain ⟨_, ha, _, hb, _, hc, _, hd, _, he, _, hf, rfl⟩ := hread
  simp only [SettingGroup.keys, optional?_eq rfl ha, optional?_eq rfl hb, optional?_eq rfl hc,
    optional?_eq rfl hd, optional?_eq rfl he, optional?_eq rfl hf]

lemma detection_eq {field : Option Json} {s : DetectionSettings}
    (h : Json.orElse? .unset detection? field = some s) :
    let at? := fun key => field.bind (member? SettingGroup.detection.keys key)
    s = ⟨(at? "high_threshold").bind Json.asReal?, (at? "medium_threshold").bind Json.asReal?,
      (at? "penalty_high").bind Json.asWord32?, (at? "penalty_medium").bind Json.asWord32?,
      (at? "penalty_low").bind Json.asWord32?,
      (at? "glob_cache_capacity").bind Json.asWord64?⟩ := by
  have hread := section_eq h (fun _ => rfl) rfl (by decide)
  simp only [List.map_cons, List.map_nil, Option.bind_eq_bind, Option.bind_eq_some_iff,
    Option.some.injEq] at hread
  obtain ⟨_, ha, _, hb, _, hc, _, hd, _, he, _, hf, rfl⟩ := hread
  simp only [SettingGroup.keys, optional?_eq rfl ha, optional?_eq rfl hb, optional?_eq rfl hc,
    optional?_eq rfl hd, optional?_eq rfl he, optional?_eq rfl hf]

lemma aggregation_eq {field : Option Json} {s : AggregationSettings}
    (h : Json.orElse? .unset aggregation? field = some s) :
    let at? := fun key => field.bind (member? SettingGroup.aggregation.keys key)
    s = ⟨(at? "cas_max_attempts").bind Json.asWord32?, (at? "top_languages").bind Json.asWord64?,
      (at? "default_limit").bind Json.asWord64?⟩ := by
  have hread := section_eq h (fun _ => rfl) rfl (by decide)
  simp only [List.map_cons, List.map_nil, Option.bind_eq_bind, Option.bind_eq_some_iff,
    Option.some.injEq] at hread
  obtain ⟨_, ha, _, hb, _, hc, rfl⟩ := hread
  simp only [SettingGroup.keys, optional?_eq rfl ha, optional?_eq rfl hb, optional?_eq rfl hc]

lemma workers_eq {field : Option Json} {s : WorkerSettings}
    (h : Json.orElse? .unset workers? field = some s) :
    let at? := fun key => field.bind (member? SettingGroup.workers.keys key)
    s = ⟨(at? "threads").bind Json.asWord64?, (at? "queue_capacity").bind Json.asWord64?,
      (at? "max_batch_files").bind Json.asWord64?⟩ := by
  have hread := section_eq h (fun _ => rfl) rfl (by decide)
  simp only [List.map_cons, List.map_nil, Option.bind_eq_bind, Option.bind_eq_some_iff,
    Option.some.injEq] at hread
  obtain ⟨_, ha, _, hb, _, hc, rfl⟩ := hread
  simp only [SettingGroup.keys, optional?_eq rfl ha, optional?_eq rfl hb, optional?_eq rfl hc]

lemma storage_eq {field : Option Json} {s : StorageSettings}
    (h : Json.orElse? .unset storage? field = some s) :
    let at? := fun key => field.bind (member? SettingGroup.storage.keys key)
    s = ⟨(at? "read_pool_size").bind Json.asWord64?, (at? "global_dir").bind Json.asText?⟩ := by
  have hread := section_eq h (fun _ => rfl) rfl (by decide)
  simp only [List.map_cons, List.map_nil, Option.bind_eq_bind, Option.bind_eq_some_iff,
    Option.some.injEq] at hread
  obtain ⟨_, ha, _, hb, rfl⟩ := hread
  simp only [SettingGroup.keys, optional?_eq rfl ha, optional?_eq rfl hb]

/-- What a document says about the settings. -/
def given (document : Json) : SettingValues := fun form setting =>
  ((member? SettingGroup.names setting.place.1.name document).bind
    (member? setting.place.1.keys setting.place.2)).bind form.decode?

/-- The settings in a document are those that it gives. -/
theorem get_of_document {document : Json} {s : Settings} (h : ofDocument? document = some s) :
    s.get = given document := by
  simp only [ofDocument?, Option.bind_eq_bind, Option.bind_eq_some_iff] at h
  obtain ⟨fields, hfields, h⟩ := h
  obtain rfl := fieldsOf?_eq (by decide) hfields
  simp only [List.map_cons, List.map_nil, Option.bind_eq_some_iff, Option.some.injEq] at h
  obtain ⟨_, hlearning, _, hdetection, _, haggregation, _, hworkers, _, hstorage, rfl⟩ := h
  obtain rfl := learning_eq hlearning
  obtain rfl := detection_eq hdetection
  obtain rfl := aggregation_eq haggregation
  obtain rfl := workers_eq hworkers
  obtain rfl := storage_eq hstorage
  funext form setting
  cases setting <;> rfl

end Settings

end HouseStyle
