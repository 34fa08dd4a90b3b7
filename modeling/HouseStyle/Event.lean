import HouseStyle.Json.Basic

/-!
# Events

What listeners are told while the program works. Every event goes to every listener
in the order in which they were registered; a listener that fails keeps nothing from
the others.
-/

namespace HouseStyle

inductive Event where
  | deltaApplied (projectId trigger : String) (preceding resulting added modified removed : Nat)
      (degraded : Bool)
  | deltaDiscarded (projectId : String) (preceding : Nat) (code message : String)
  | patternDiscovered (projectId patternId category : String) (confidence : Float)
  | patternRemoved (projectId patternId : String) (version : Nat)
  | violationDetected (patternId filePath : String) (line : Nat) (severity : String)
  | exceptionAdded (projectId patternId scope : String)
  | projectLinked (projectId path : String) (relinked : Bool)
  | projectUnlinked (projectId : String)
  | syncComplete (projectId : String) (added updated removed checkpoint : Nat)
  | failure (message code : String)

namespace Event

def toJson : Event → Json
  | deltaApplied projectId trigger preceding resulting added modified removed degraded =>
    .object [
      ("event", .text "delta_applied"), ("project_id", .text projectId),
      ("trigger", .text trigger), ("preceding_version", .ofNat preceding),
      ("resulting_version", .ofNat resulting), ("patterns_added", .ofNat added),
      ("patterns_modified", .ofNat modified), ("patterns_removed", .ofNat removed),
      ("partial_degradation", .bool degraded)]
  | deltaDiscarded projectId preceding code message =>
    .object [
      ("event", .text "delta_discarded"), ("project_id", .text projectId),
      ("preceding_version", .ofNat preceding), ("error_code", .text code),
      ("message", .text message)]
  | patternDiscovered projectId patternId category confidence =>
    .object [
      ("event", .text "pattern_discovered"), ("project_id", .text projectId),
      ("pattern_id", .text patternId), ("pattern_type", .text category),
      ("confidence", .real confidence)]
  | patternRemoved projectId patternId version =>
    .object [
      ("event", .text "pattern_removed"), ("project_id", .text projectId),
      ("pattern_id", .text patternId), ("version", .ofNat version)]
  | violationDetected patternId filePath line severity =>
    .object [
      ("event", .text "violation_detected"), ("pattern_id", .text patternId),
      ("file_path", .text filePath), ("line", .ofNat line), ("severity", .text severity)]
  | exceptionAdded projectId patternId scope =>
    .object [
      ("event", .text "exception_added"), ("project_id", .text projectId),
      ("pattern_id", .text patternId), ("scope_glob", .text scope)]
  | projectLinked projectId path relinked =>
    .object [
      ("event", .text "project_linked"), ("project_id", .text projectId), ("path", .text path),
      ("relinked", .bool relinked)]
  | projectUnlinked projectId =>
    .object [("event", .text "project_unlinked"), ("project_id", .text projectId)]
  | syncComplete projectId added updated removed checkpoint =>
    .object [
      ("event", .text "sync_complete"), ("project_id", .text projectId),
      ("patterns_added", .ofNat added), ("patterns_updated", .ofNat updated),
      ("patterns_removed", .ofNat removed), ("checkpoint", .ofNat checkpoint)]
  | failure message code =>
    .object [("event", .text "error"), ("message", .text message), ("error_code", .text code)]

end Event

/-- What a listener does with an event: keep it, fail, or nothing. -/
inductive Listener where
  | recording (events : List Event)
  | failing
  | silent

namespace Listener

/-- The listener after an event. A failure leaves it as it was. -/
def hear (event : Event) : Listener → Listener
  | recording events => recording (events ++ [event])
  | failing => failing
  | silent => silent

/-- What a recording listener has heard. -/
def heard? : Listener → Option (List Event)
  | recording events => some events
  | failing | silent => none

end Listener

/-- Tell all listeners of an event. -/
def announce (listeners : List Listener) (event : Event) : List Listener :=
  listeners.map (Listener.hear event)

end HouseStyle
