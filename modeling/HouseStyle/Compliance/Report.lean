import HouseStyle.Compliance.Fix
import HouseStyle.Compliance.Severity
import HouseStyle.Store.PatternStore
import HouseStyle.Word

/-!
# Reports of checks

A violation names the pattern that a place in a file breaks. A report lists the
violations of one file by line and then by pattern, with what is left of the score.
-/

namespace HouseStyle

structure Violation where
  patternId : String
  filePath : String
  lineStart : Nat
  lineEnd : Nat
  severity : Severity
  /-- The confidence in the broken pattern. -/
  confidence : Float
  message : String
  fix : Option SuggestedFix

namespace Violation

def toJson (v : Violation) : Json :=
  .object [
    ("pattern_id", .text v.patternId),
    ("file_path", .text v.filePath),
    ("line_start", .ofNat v.lineStart),
    ("line_end", .ofNat v.lineEnd),
    ("severity", .text v.severity.name),
    ("confidence", .ofReal v.confidence),
    ("message", .text v.message),
    ("suggested_fix", .ofOption SuggestedFix.toJson v.fix)]

/-- The form in which the history keeps a violation. The confidence is not kept. -/
def toRow (checkedAt : Int) (v : Violation) : ViolationRow where
  patternId := v.patternId
  filePath := v.filePath
  lineStart := v.lineStart
  lineEnd := v.lineEnd
  severity := v.severity.name
  message := v.message
  suggestedFix := v.fix.map fun fix => fix.toJson.render
  checkedAt

/-- By line, then by pattern. -/
def before (a b : Violation) : Bool :=
  a.lineStart < b.lineStart || (a.lineStart == b.lineStart && a.patternId ≤ b.patternId)

end Violation

/-- A line number read back from the history. One that is out of range is read as 0. -/
def readLine (n : Int) : Nat := if 0 ≤ n ∧ n < Word.bound32 then n.toNat else 0

/-- A violation kept in the history. -/
structure ViolationRecord where
  violation : Violation
  checkedAt : Int

namespace ViolationRecord

/-- Read a kept violation. One of an unknown severity is left out. -/
def ofRow? (row : ViolationRow) : Option ViolationRecord := do
  let severity ← Severity.ofName? row.severity
  some {
    violation := {
      patternId := row.patternId
      filePath := row.filePath
      lineStart := readLine row.lineStart
      lineEnd := readLine row.lineEnd
      severity
      confidence := 0.0
      message := row.message
      fix := (row.suggestedFix.bind Json.parse?).bind SuggestedFix.ofJson? }
    checkedAt := row.checkedAt }

def toJson (record : ViolationRecord) : Json :=
  .object [("violation", record.violation.toJson), ("checked_at", .int record.checkedAt)]

end ViolationRecord

structure CheckOptions where
  /-- Violations of a lower severity are left out. -/
  threshold : Severity
  /-- Whether to suggest fixes. -/
  suggestFixes : Bool
  /-- Whether to keep the violations in the history. -/
  trackHistory : Bool
  deriving DecidableEq, Repr, Inhabited

namespace CheckOptions

def standard : CheckOptions := ⟨.low, false, false⟩

def ofJson? (value : Json) : Option CheckOptions := do
  let fields ← value.record? [("severity_threshold", .defaulted), ("auto_fix", .defaulted),
    ("track_history", .defaulted)]
  match fields with
  | [threshold, suggestFixes, trackHistory] =>
    some {
      threshold := ← Json.orElse? .low (fun v => v.asChoice?.bind Severity.ofName?) threshold
      suggestFixes := ← Json.orElse? false Json.asBool? suggestFixes
      trackHistory := ← Json.orElse? false Json.asBool? trackHistory }
  | _ => none

end CheckOptions

structure ComplianceReport where
  filePath : String
  violations : List Violation
  score : Nat
  /-- Whether the file was not fully understood. -/
  degraded : Bool
  /-- How many conflicts an exception covers. -/
  suppressed : Nat

def ComplianceReport.toJson (r : ComplianceReport) : Json :=
  .object [
    ("file_path", .text r.filePath),
    ("violations", .list (r.violations.map (·.toJson))),
    ("overall_score", .ofNat r.score),
    ("degraded", .bool r.degraded),
    ("suppressed", .ofNat r.suppressed)]

end HouseStyle
