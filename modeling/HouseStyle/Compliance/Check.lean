import HouseStyle.Compliance.Exception
import HouseStyle.Compliance.Report
import HouseStyle.Decimal.Fixed
import HouseStyle.Store.PatternForm

/-!
# Checking a file

In every slot the leading pattern that applies to the file says what is expected. A
place in the file conflicts with it when it follows another rule that is seen less
often. Conflicts that no exception covers are violations. A check changes nothing but
the history of violations, and that only when asked to.
-/

namespace HouseStyle

/-- Whether a pattern applies to files of a language. One without language tags applies
to all files. -/
def Pattern.appliesTo (pattern : Pattern) (language : Option Language) : Bool :=
  let tags := pattern.languages
  tags.isEmpty || language.any fun language => tags.contains language.tag

/-- The patterns of a slot that apply to a file, the leading one first. -/
structure SlotPatterns where
  slot : String
  patterns : List Pattern

namespace SlotPatterns

def leading? (slot : SlotPatterns) : Option Pattern := slot.patterns.head?

/-- Whether a rule is seen at least as often as a pattern. -/
def isEstablished (slot : SlotPatterns) (content : PatternContent) (than : Pattern) : Bool :=
  (slot.patterns.find? (·.content == content)).any fun observed =>
    than.frequency ≤ observed.frequency

/-- The pattern that an observation conflicts with. -/
def conflict? (slot : SlotPatterns) (observation : Observation) : Option Pattern :=
  slot.leading?.filter fun leading =>
    leading.content != observation.content && !slot.isEstablished observation.content leading

end SlotPatterns

namespace PatternStore

def slotPatterns (store : PatternStore) (language : Option Language) (slot : String) :
    Except StorageError SlotPatterns := do
  let patterns ← (store.patternsInSlot slot).mapM Pattern.ofRow
  return ⟨slot, patterns.filter (·.appliesTo language)⟩

/-- The slots of some observations, each once. -/
def slotsOf (store : PatternStore) (language : Option Language)
    (observations : List Observation) : Except StorageError (List SlotPatterns) :=
  (observations.map (·.content.slot)).eraseDups.mapM (store.slotPatterns language)

end PatternStore

/-- An observation and the pattern that it conflicts with. -/
structure Conflict where
  observation : Observation
  pattern : Pattern

namespace Conflict

def ofObservation? (slots : List SlotPatterns) (observation : Observation) : Option Conflict := do
  let slot ← slots.find? (·.slot == observation.content.slot)
  let pattern ← slot.conflict? observation
  some ⟨observation, pattern⟩

def message (conflict : Conflict) : String :=
  let percent := Decimal.fixed 0 (conflict.pattern.confidence * 100.0)
  let opening := match conflict.observation.subject with
    | some subject => "'" ++ subject ++ "' deviates"
    | none => "Deviates"
  opening ++ " from the project convention: " ++ conflict.pattern.content.describe ++
    " (confidence " ++ percent ++ "%)"

/-- The violation that a conflict amounts to, unless it is not severe enough. -/
def violation? (policy : SeverityPolicy) (options : CheckOptions) (path : String)
    (conflict : Conflict) : Option Violation :=
  let severity := policy.classify conflict.pattern.confidence
  if severity.level < options.threshold.level then none
  else some {
    patternId := conflict.pattern.id
    filePath := path
    lineStart := conflict.observation.line
    lineEnd := conflict.observation.line
    severity
    confidence := conflict.pattern.confidence
    message := conflict.message
    fix :=
      if options.suggestFixes then
        SuggestedFix.suggest? conflict.observation conflict.pattern.content
      else none }

end Conflict

/-- What came of a check. -/
structure Checked where
  store : PatternStore
  result : Except DetectionError ComplianceReport
  events : List Event

/-- The conflicts of a file with the patterns of a store. -/
def PatternStore.conflictsIn (store : PatternStore) (path : String)
    (observations : List Observation) : Except StorageError (List Conflict) := do
  let slots ← store.slotsOf (Language.ofPath? path) observations
  return observations.filterMap (Conflict.ofObservation? slots)

/-- The report of a file with a normalized path. -/
def PatternStore.report (store : PatternStore) (policy : SeverityPolicy) (options : CheckOptions)
    (path : String) (degraded : Bool) (observations : List Observation) :
    Except StorageError ComplianceReport := do
  let conflicts ← store.conflictsIn path observations
  let (excepted, remaining) := conflicts.partition fun conflict => store.silences conflict.pattern.id path
  let violations := (remaining.filterMap (Conflict.violation? policy options path)).mergeSort
    Violation.before
  return {
    filePath := path
    violations
    score := policy.score (violations.map (·.severity))
    degraded
    suppressed := excepted.length }

/-- Keep the violations of a report in the history, when that is asked for. -/
def PatternStore.recordHistory (store : PatternStore) (options : CheckOptions) (now : Int)
    (report : ComplianceReport) : Except StorageError PatternStore :=
  if options.trackHistory then store.insertViolations (report.violations.map (Violation.toRow now))
  else .ok store

/-- What an extractor finds, or nothing of a file that it fails on. -/
def extractOrNothing (extract : String → String → Except ExtractionError Extraction)
    (path code : String) : Extraction :=
  match extract path code with
  | .ok extraction => extraction
  | .error _ => .unsupported

/-- Check a text as if it were the content of a file. -/
def checkCompliance (policy : SeverityPolicy)
    (extract : String → String → Except ExtractionError Extraction) (now : Int)
    (store : PatternStore) (code path : String) (options : CheckOptions) : Checked :=
  match checkablePath path with
  | .error error => ⟨store, .error error, []⟩
  | .ok path =>
    let extraction := extractOrNothing extract path code
    let observations := Observation.observe path code extraction
    let outcome := do
      let report ← store.report policy options path extraction.degraded observations
      return (← store.recordHistory options now report, report)
    match outcome with
    | .error error => ⟨store, .error (.storage error), []⟩
    | .ok (store, report) =>
      ⟨store, .ok report, report.violations.map fun v =>
        .violationDetected v.patternId v.filePath v.lineStart v.severity.name⟩

/-- The violations kept of a file, the latest first. -/
def violationHistory (store : PatternStore) (path : String) :
    Except DetectionError (List ViolationRecord) := do
  let path ← checkablePath path
  return (store.violationsForFile path).filterMap ViolationRecord.ofRow?

end HouseStyle
