import HouseStyle.Compliance.Severity
import HouseStyle.Config.Toml
import HouseStyle.Error.Operation
import HouseStyle.Json.Decode
import HouseStyle.Pattern.Confidence

/-!
# Settings

The twenty settings, each of which may be left open. A setting that is open has a
fixed value to fall back on. Settings of a higher layer override those of a lower one
field by field, and only the result of all layers is validated.
-/

namespace HouseStyle

structure LearningSettings where
  maxExamples : Option Nat
  recencyWindowDays : Option Nat
  recencyBonus : Option Float
  relearnThreshold : Option Float
  maxFileSize : Option Nat
  parallelExtraction : Option Bool

structure DetectionSettings where
  highThreshold : Option Float
  mediumThreshold : Option Float
  penaltyHigh : Option Nat
  penaltyMedium : Option Nat
  penaltyLow : Option Nat
  globCacheCapacity : Option Nat

structure AggregationSettings where
  casMaxAttempts : Option Nat
  topLanguages : Option Nat
  defaultLimit : Option Nat

structure WorkerSettings where
  threads : Option Nat
  queueCapacity : Option Nat
  maxBatchFiles : Option Nat

structure StorageSettings where
  readPoolSize : Option Nat
  globalDir : Option String

structure Settings where
  learning : LearningSettings
  detection : DetectionSettings
  aggregation : AggregationSettings
  workers : WorkerSettings
  storage : StorageSettings

/-! ## Fallbacks -/

namespace LearningSettings

def unset : LearningSettings := ⟨none, none, none, none, none, none⟩

def examples (s : LearningSettings) : Nat := s.maxExamples.getD 5

/-- The window in seconds. -/
def window (s : LearningSettings) : Int := (s.recencyWindowDays.getD 7 : Nat) * 86400

def bonus (s : LearningSettings) : Float := s.recencyBonus.getD 0.05

def threshold (s : LearningSettings) : Float := s.relearnThreshold.getD 0.1

def fileSize (s : LearningSettings) : Nat := s.maxFileSize.getD 1048576

def parallel (s : LearningSettings) : Bool := s.parallelExtraction.getD true

def confidencePolicy (s : LearningSettings) : ConfidencePolicy := ⟨s.window, s.bonus⟩

end LearningSettings

namespace DetectionSettings

def unset : DetectionSettings := ⟨none, none, none, none, none, none⟩

def high (s : DetectionSettings) : Float := s.highThreshold.getD 0.85

def medium (s : DetectionSettings) : Float := s.mediumThreshold.getD 0.6

def cacheCapacity (s : DetectionSettings) : Nat := s.globCacheCapacity.getD 1024

def severityPolicy (s : DetectionSettings) : SeverityPolicy :=
  ⟨s.high, s.medium, s.penaltyHigh.getD 15, s.penaltyMedium.getD 7, s.penaltyLow.getD 2⟩

end DetectionSettings

namespace AggregationSettings

def unset : AggregationSettings := ⟨none, none, none⟩

def attempts (s : AggregationSettings) : Nat := s.casMaxAttempts.getD 8

def languages (s : AggregationSettings) : Nat := s.topLanguages.getD 5

def limit (s : AggregationSettings) : Nat := s.defaultLimit.getD 100

end AggregationSettings

namespace WorkerSettings

def unset : WorkerSettings := ⟨none, none, none⟩

def threadCount (s : WorkerSettings) : Nat := s.threads.getD 4

def capacity (s : WorkerSettings) : Nat := s.queueCapacity.getD 1024

def batchFiles (s : WorkerSettings) : Nat := s.maxBatchFiles.getD 500

end WorkerSettings

namespace StorageSettings

def unset : StorageSettings := ⟨none, none⟩

def poolSize (s : StorageSettings) : Nat := s.readPoolSize.getD 4

end StorageSettings

namespace Settings

def unset : Settings := ⟨.unset, .unset, .unset, .unset, .unset⟩

/-! ## Layers -/

/-- The settings of two layers together. What `upper` leaves open is taken from `lower`. -/
def override (lower upper : Settings) : Settings where
  learning := {
    maxExamples := upper.learning.maxExamples.or lower.learning.maxExamples
    recencyWindowDays := upper.learning.recencyWindowDays.or lower.learning.recencyWindowDays
    recencyBonus := upper.learning.recencyBonus.or lower.learning.recencyBonus
    relearnThreshold := upper.learning.relearnThreshold.or lower.learning.relearnThreshold
    maxFileSize := upper.learning.maxFileSize.or lower.learning.maxFileSize
    parallelExtraction := upper.learning.parallelExtraction.or lower.learning.parallelExtraction }
  detection := {
    highThreshold := upper.detection.highThreshold.or lower.detection.highThreshold
    mediumThreshold := upper.detection.mediumThreshold.or lower.detection.mediumThreshold
    penaltyHigh := upper.detection.penaltyHigh.or lower.detection.penaltyHigh
    penaltyMedium := upper.detection.penaltyMedium.or lower.detection.penaltyMedium
    penaltyLow := upper.detection.penaltyLow.or lower.detection.penaltyLow
    globCacheCapacity := upper.detection.globCacheCapacity.or lower.detection.globCacheCapacity }
  aggregation := {
    casMaxAttempts := upper.aggregation.casMaxAttempts.or lower.aggregation.casMaxAttempts
    topLanguages := upper.aggregation.topLanguages.or lower.aggregation.topLanguages
    defaultLimit := upper.aggregation.defaultLimit.or lower.aggregation.defaultLimit }
  workers := {
    threads := upper.workers.threads.or lower.workers.threads
    queueCapacity := upper.workers.queueCapacity.or lower.workers.queueCapacity
    maxBatchFiles := upper.workers.maxBatchFiles.or lower.workers.maxBatchFiles }
  storage := {
    readPoolSize := upper.storage.readPoolSize.or lower.storage.readPoolSize
    globalDir := upper.storage.globalDir.or lower.storage.globalDir }

/-! ## Validation -/

private def check (ok : Bool) (field message : String) : Except ConfigError Unit :=
  if ok then .ok () else .error (.validation field message)

private def checkUnit (field : String) (value : Option Float) : Except ConfigError Unit :=
  check (value.all fun v => 0.0 ≤ v && v ≤ 1.0) field "must be between 0.0 and 1.0"

private def checkPositive (field : String) (value : Option Nat) : Except ConfigError Unit :=
  check (value != some 0) field "must be greater than 0"

/-- The first mistake in the settings. -/
def validate (s : Settings) : Except ConfigError Unit := do
  checkUnit "detection.high_threshold" s.detection.highThreshold
  checkUnit "detection.medium_threshold" s.detection.mediumThreshold
  checkUnit "learning.recency_bonus" s.learning.recencyBonus
  checkUnit "learning.relearn_threshold" s.learning.relearnThreshold
  check (!s.learning.recencyBonus.any fun v => 1.0 ≤ v) "learning.recency_bonus"
    "must be lower than 1.0"
  check (!(s.detection.high ≤ s.detection.medium)) "detection.medium_threshold"
    "must be lower than detection.high_threshold"
  checkPositive "workers.threads" s.workers.threads
  checkPositive "workers.queue_capacity" s.workers.queueCapacity
  checkPositive "learning.max_examples" s.learning.maxExamples
  checkPositive "learning.max_file_size" s.learning.maxFileSize
  checkPositive "aggregation.cas_max_attempts" s.aggregation.casMaxAttempts

/-! ## Reading -/

/-- A setting that may be left open. -/
def optional? {α : Type} (decode : Json → Option α) (field : Option Json) :
    Option (Option α) :=
  Json.orElse? none (Json.asOption? decode) field

/-- The fields of a section. A list may be longer than the section. -/
def fieldsOf? (names : List String) (value : Json) : Option (List (Option Json)) :=
  let value := match value with
    | .list items => Json.list (items.take names.length)
    | value => value
  value.record? (names.map fun name => (name, .defaulted))

def learning? (value : Json) : Option LearningSettings := do
  match ← fieldsOf? ["max_examples", "recency_window_days", "recency_bonus", "relearn_threshold",
      "max_file_size", "parallel_extraction"] value with
  | [examples, days, bonus, threshold, size, parallel] =>
    some ⟨← optional? Json.asWord64? examples, ← optional? Json.asWord32? days,
      ← optional? Json.asReal? bonus, ← optional? Json.asReal? threshold,
      ← optional? Json.asWord64? size, ← optional? Json.asBool? parallel⟩
  | _ => none

def detection? (value : Json) : Option DetectionSettings := do
  match ← fieldsOf? ["high_threshold", "medium_threshold", "penalty_high", "penalty_medium",
      "penalty_low", "glob_cache_capacity"] value with
  | [high, medium, penaltyHigh, penaltyMedium, penaltyLow, capacity] =>
    some ⟨← optional? Json.asReal? high, ← optional? Json.asReal? medium,
      ← optional? Json.asWord32? penaltyHigh, ← optional? Json.asWord32? penaltyMedium,
      ← optional? Json.asWord32? penaltyLow, ← optional? Json.asWord64? capacity⟩
  | _ => none

def aggregation? (value : Json) : Option AggregationSettings := do
  match ← fieldsOf? ["cas_max_attempts", "top_languages", "default_limit"] value with
  | [attempts, languages, limit] =>
    some ⟨← optional? Json.asWord32? attempts, ← optional? Json.asWord64? languages,
      ← optional? Json.asWord64? limit⟩
  | _ => none

def workers? (value : Json) : Option WorkerSettings := do
  match ← fieldsOf? ["threads", "queue_capacity", "max_batch_files"] value with
  | [threads, capacity, files] =>
    some ⟨← optional? Json.asWord64? threads, ← optional? Json.asWord64? capacity,
      ← optional? Json.asWord64? files⟩
  | _ => none

def storage? (value : Json) : Option StorageSettings := do
  match ← fieldsOf? ["read_pool_size", "global_dir"] value with
  | [pool, dir] => some ⟨← optional? Json.asWord64? pool, ← optional? Json.asText? dir⟩
  | _ => none

/-- The settings in a document. Unknown keys are ignored. -/
def ofDocument? (value : Json) : Option Settings := do
  match ← fieldsOf? ["learning", "detection", "aggregation", "workers", "storage"] value with
  | [learning, detection, aggregation, workers, storage] =>
    some ⟨← Json.orElse? .unset learning? learning, ← Json.orElse? .unset detection? detection,
      ← Json.orElse? .unset aggregation? aggregation, ← Json.orElse? .unset workers? workers,
      ← Json.orElse? .unset storage? storage⟩
  | _ => none

/-- The settings in a text, of which `path` tells where it is from. They are not validated. -/
def ofText (path source : String) : Except ConfigError Settings :=
  match (Toml.parse? source).bind ofDocument? with
  | some settings => .ok settings
  | none => .error (.parse path)

/-- The validated settings in a text that is in no file. -/
def ofToml (source : String) : Except ConfigError Settings := do
  let settings ← ofText "<string>" source
  settings.validate
  return settings

end Settings

end HouseStyle
