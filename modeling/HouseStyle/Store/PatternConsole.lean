import HouseStyle.Learning.Replay
import HouseStyle.Store.Console

/-!
# The console of a pattern store

The reads and writes of a pattern store by their names.
-/

namespace HouseStyle.PatternStore

open Json (ofNat)

private def rowsOf {ρ : Type} (encode : ρ → Json) (rows : List ρ) : Json :=
  .list (rows.map encode)

/-- A read by its name. -/
def read? (store : PatternStore) (name : String) (step : Json) : Option (Except StorageError Json) :=
  let file := step.textAt "file"
  let id := step.textAt "id"
  let version := step.intAt "version"
  match name with
  | "current_version" => some (.ok (.int store.version))
  | "get_pattern" => some (.ok (.ofOption PatternRow.toJson (store.getPattern? id)))
  | "load_pattern" =>
    some <| match store.getPattern? id with
      | none => .ok .null
      | some row => (Pattern.ofRow row).map Pattern.toJson
  | "list_patterns" => some (.ok (rowsOf PatternRow.toJson store.listPatterns))
  | "patterns_in_slot" =>
    some (.ok (rowsOf PatternRow.toJson (store.patternsInSlot (step.textAt "slot"))))
  | "patterns_since" => some (.ok (rowsOf PatternRow.toJson (store.patternsSince version)))
  | "count_patterns" => some (.ok (ofNat store.patterns.length))
  | "concepts_for_file" => some (.ok (rowsOf ConceptRow.toJson (store.conceptsForFile file)))
  | "count_concepts" => some (.ok (ofNat store.concepts.length))
  | "evidence_for_file" => some (.ok (rowsOf EvidenceRow.toJson (store.evidenceForFile file)))
  | "count_for_pattern" => some (.ok (ofNat (store.countForPattern id)))
  | "examples" =>
    some (.ok (rowsOf EvidenceRow.toJson (store.examplesFor id (step.wordAt "limit"))))
  | "files_for_pattern" =>
    some (.ok (rowsOf (fun (path, language) => .list [.text path, .ofOption .text language])
      (store.filesForPattern id)))
  | "get_file" => some (.ok (.ofOption TrackedFile.toJson (store.getFile? file)))
  | "count_files" => some (.ok (ofNat store.files.length))
  | "list_deltas" => some (.ok (rowsOf DeltaRow.toJson store.listDeltas))
  | "latest_delta" => some (.ok (.ofOption DeltaRow.toJson store.latestDelta?))
  | "list_operations" => some (.ok (rowsOf OperationRow.toJson store.listOperations))
  | "replay" => some (store.replay.map (rowsOf Pattern.toJson))
  | "verify_replay" => some (store.verifyReplay.map .bool)
  | "tombstones_since" => some (.ok (rowsOf TombstoneRow.toJson (store.tombstonesSince version)))
  | "exceptions_for_pattern" =>
    some (.ok (rowsOf ExceptionRow.toJson (store.exceptionsForPattern id)))
  | "list_exceptions" => some (.ok (rowsOf ExceptionRow.toJson store.exceptions))
  | "violations_for_file" =>
    some (.ok (rowsOf ViolationRow.toJson (store.violationsForFile file)))
  | "count_violations" => some (.ok (ofNat store.violations.length))
  | "store" =>
    some (.ok (.object [("version", ofNat store.version.toNat),
      ("patterns", ofNat store.patterns.length), ("concepts", ofNat store.concepts.length)]))
  | _ => none

/-- A write by its name. Concepts are inserted one by one. -/
def write? (store : PatternStore) (name : String) (step : Json) :
    Option (Except StorageError Json × PatternStore) :=
  let file := step.textAt "file"
  let source := step.textAt "from"
  let target := step.textAt "to"
  let row := step.objectAt "row"
  let rows := step.listAt "rows"
  let change (write : Except StorageError PatternStore) :=
    some (Console.whole (fun _ => .null) (write.map fun changed => (changed, ())) store)
  let counted (write : Except StorageError (PatternStore × Nat)) :=
    some (Console.whole ofNat write store)
  match name with
  | "advance_version" =>
    change (store.advanceVersion (step.intAt "expected") (step.intAt "next"))
  | "upsert_pattern" => change (store.upsertPattern (.ofJson row))
  | "delete_pattern" =>
    some (Console.whole .bool (store.deletePattern (step.textAt "id")) store)
  | "insert_concepts" =>
    let (result, taken) := store.takeConcepts (rows.map .ofJson)
    some (result.map fun _ => .null, taken)
  | "delete_file_concepts" => counted (store.deleteFileConcepts file)
  | "rekey_concepts" => counted (store.rekeyConcepts source target)
  | "insert_evidence" => change (store.insertEvidence (rows.map .ofJson))
  | "delete_file_evidence" => counted (store.deleteFileEvidence file)
  | "rekey_evidence" => counted (store.rekeyEvidence source target)
  | "upsert_file" => change (store.upsertFile (.ofJson row))
  | "delete_file" => counted (store.deleteFile file)
  | "rekey_file" => counted (store.rekeyFile source target)
  | "insert_delta" => change (store.insertDelta (.ofJson row))
  | "insert_operation" => change (store.insertOperation (.ofJson row))
  | "insert_tombstone" => change (store.insertTombstone (.ofJson row))
  | "insert_exception" =>
    some (Console.whole .int (store.insertException (step.textAt "id") (step.textAt "scope")
      (step.textAt "reason") (step.intAt "created_at")) store)
  | "insert_violations" => change (store.insertViolations (rows.map .ofJson))
  | _ => none

def console : Console PatternStore where
  perform name step store :=
    match store.read? name step with
    | some result => (result, store)
    | none => (store.write? name step).getD (.error (.notFound "step" name), store)
  rolledBack := rolledBack
  faults := (·.faults)
  withFaults store faults := { store with faults }
  schema := "project"
  schemaVersion := 3
  cacheKib := 64000
  busyTimeoutMs := 5000

end HouseStyle.PatternStore
