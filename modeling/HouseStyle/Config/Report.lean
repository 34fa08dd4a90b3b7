import HouseStyle.Config.Layers
import HouseStyle.Decimal.Shortest
import HouseStyle.Word

/-!
# Reports on settings

Settings written back as a document, and as a report that also says which values are
in effect.
-/

namespace HouseStyle.Settings

/-- A setting by its name, with its value in a document. -/
private def line (name : String) (value : Option String) : Option String :=
  value.map fun value => name ++ " = " ++ value

/-- A whole number in a document must be a signed 64-bit word. -/
private def word (value : Option Nat) : Except ConfigError (Option String) :=
  match value with
  | some n => if n < Word.half then .ok (some (toString n)) else .error (.parse "<serialization>")
  | none => .ok none

private def number (value : Option Float) : Option String := value.map Decimal.pointed

private def tableText (name : String) (lines : List (Option String)) : String :=
  let lines := ("[" ++ name ++ "]") :: lines.filterMap id
  String.join (lines.map (· ++ "\n"))

/-- The settings as a document: all sections, and in them what is set. -/
def toToml (s : Settings) : Except ConfigError String := do
  let learning := tableText "learning" [
    line "max_examples" (← word s.learning.maxExamples),
    line "recency_window_days" (← word s.learning.recencyWindowDays),
    line "recency_bonus" (number s.learning.recencyBonus),
    line "relearn_threshold" (number s.learning.relearnThreshold),
    line "max_file_size" (← word s.learning.maxFileSize),
    line "parallel_extraction" (s.learning.parallelExtraction.map toString)]
  let detection := tableText "detection" [
    line "high_threshold" (number s.detection.highThreshold),
    line "medium_threshold" (number s.detection.mediumThreshold),
    line "penalty_high" (← word s.detection.penaltyHigh),
    line "penalty_medium" (← word s.detection.penaltyMedium),
    line "penalty_low" (← word s.detection.penaltyLow),
    line "glob_cache_capacity" (← word s.detection.globCacheCapacity)]
  let aggregation := tableText "aggregation" [
    line "cas_max_attempts" (← word s.aggregation.casMaxAttempts),
    line "top_languages" (← word s.aggregation.topLanguages),
    line "default_limit" (← word s.aggregation.defaultLimit)]
  let workers := tableText "workers" [
    line "threads" (← word s.workers.threads),
    line "queue_capacity" (← word s.workers.queueCapacity),
    line "max_batch_files" (← word s.workers.maxBatchFiles)]
  let storage := tableText "storage" [
    line "read_pool_size" (← word s.storage.readPoolSize),
    line "global_dir" (s.storage.globalDir.map Toml.quote)]
  return "\n".intercalate [learning, detection, aggregation, workers, storage]

private def words (value : Option Nat) : Json := .ofOption .ofNat value

private def reals (value : Option Float) : Json := .ofOption .real value

/-- All settings, open ones as `null`. -/
def configured (s : Settings) : Json :=
  .object [
    ("learning", .object [
      ("max_examples", words s.learning.maxExamples),
      ("recency_window_days", words s.learning.recencyWindowDays),
      ("recency_bonus", reals s.learning.recencyBonus),
      ("relearn_threshold", reals s.learning.relearnThreshold),
      ("max_file_size", words s.learning.maxFileSize),
      ("parallel_extraction", .ofOption .bool s.learning.parallelExtraction)]),
    ("detection", .object [
      ("high_threshold", reals s.detection.highThreshold),
      ("medium_threshold", reals s.detection.mediumThreshold),
      ("penalty_high", words s.detection.penaltyHigh),
      ("penalty_medium", words s.detection.penaltyMedium),
      ("penalty_low", words s.detection.penaltyLow),
      ("glob_cache_capacity", words s.detection.globCacheCapacity)]),
    ("aggregation", .object [
      ("cas_max_attempts", words s.aggregation.casMaxAttempts),
      ("top_languages", words s.aggregation.topLanguages),
      ("default_limit", words s.aggregation.defaultLimit)]),
    ("workers", .object [
      ("threads", words s.workers.threads),
      ("queue_capacity", words s.workers.queueCapacity),
      ("max_batch_files", words s.workers.maxBatchFiles)]),
    ("storage", .object [
      ("read_pool_size", words s.storage.readPoolSize),
      ("global_dir", .ofOption .text s.storage.globalDir)])]

/-- What is in effect, what is set, and both as a document. -/
def report (s : Settings) (environment : Environment) : Except ConfigError Json := do
  let policy := s.detection.severityPolicy
  return .object [
    ("learning", .object [
      ("max_examples", .ofNat s.learning.examples),
      ("recency_window_secs", .int s.learning.window),
      ("recency_bonus", .real s.learning.bonus),
      ("relearn_threshold", .real s.learning.threshold),
      ("max_file_size", .ofNat s.learning.fileSize),
      ("parallel_extraction", .bool s.learning.parallel)]),
    ("detection", .object [
      ("high_threshold", .real policy.highThreshold),
      ("medium_threshold", .real policy.mediumThreshold),
      ("penalty_high", .ofNat policy.penaltyHigh),
      ("penalty_medium", .ofNat policy.penaltyMedium),
      ("penalty_low", .ofNat policy.penaltyLow),
      ("glob_cache_capacity", .ofNat s.detection.cacheCapacity)]),
    ("aggregation", .object [
      ("cas_max_attempts", .ofNat s.aggregation.attempts),
      ("top_languages", .ofNat s.aggregation.languages),
      ("default_limit", .ofNat s.aggregation.limit)]),
    ("workers", .object [
      ("threads", .ofNat s.workers.threadCount),
      ("queue_capacity", .ofNat s.workers.capacity),
      ("max_batch_files", .ofNat s.workers.batchFiles)]),
    ("storage", .object [
      ("read_pool_size", .ofNat s.storage.poolSize),
      ("global_dir", .ofOption .text s.storage.globalDir)]),
    ("global_dir", .ofOption .text (s.globalDirectory environment)),
    ("set", s.configured),
    ("toml", .text (← s.toToml))]

end HouseStyle.Settings
