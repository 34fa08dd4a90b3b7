import HouseStyle.Proofs.Learning.Batch
import HouseStyle.Proofs.Portfolio.Mirror

/-!
# The chain of versions

A store moves from version to version one at a time, and its log has one delta for each move.
All that a merge writes carries the version that it leads to, and its operations are numbered
from 0 on. A call that leads nowhere has changed nothing: this rests on concepts and evidence
belonging to tracked files, since only the rows of files are counted.
-/

namespace HouseStyle

namespace PatternStore

variable {store after : PatternStore}

/-- The numbers of the operations of one merge. -/
def numbersAt (store : PatternStore) (version : Int) : List Int :=
  (store.operations.filter (·.resultingVersion == version)).map (·.seq)

/-- The deltas of a store lead from 0 to its version in steps of one. What carries a version
was written on the way, and the operations of every merge are numbered without gaps. -/
structure Chained (store : PatternStore) : Prop where
  counted : 0 ≤ store.version
  deltas : store.deltas.map (fun row => (row.precedingVersion, row.resultingVersion)) =
    (List.range store.version.toNat).map fun n : Nat => ((n : Int), (n : Int) + 1)
  operations : ∀ row ∈ store.operations,
    1 ≤ row.resultingVersion ∧ row.resultingVersion ≤ store.version
  numbered : ∀ version, ∃ n, store.numbersAt version = (List.range n).map fun k : Nat => (k : Int)
  patterns : ∀ row ∈ store.patterns, 1 ≤ row.version ∧ row.version ≤ store.version
  tombstones : ∀ row ∈ store.tombstones, 1 ≤ row.version ∧ row.version ≤ store.version

lemma chained_empty : Chained .empty where
  counted := Int.le_refl 0
  deltas := rfl
  operations := by simp [empty]
  numbered := fun _ => ⟨0, rfl⟩
  patterns := by simp [empty]
  tombstones := by simp [empty]

/-- Only these tables matter. -/
lemma Chained.congr (chained : Chained store) (hversion : after.version = store.version)
    (hdeltas : after.deltas = store.deltas) (hoperations : after.operations = store.operations)
    (hpatterns : after.patterns = store.patterns)
    (htombstones : after.tombstones = store.tombstones) : Chained after where
  counted := by rw [hversion]; exact chained.counted
  deltas := by rw [hversion, hdeltas]; exact chained.deltas
  operations := by rw [hversion, hoperations]; exact chained.operations
  numbered := by unfold numbersAt; rw [hoperations]; exact chained.numbered
  patterns := by rw [hversion, hpatterns]; exact chained.patterns
  tombstones := by rw [hversion, htombstones]; exact chained.tombstones

lemma map_seq_loggedRows (version seq : Nat) (changes : List PatternChange) :
    (loggedRows version seq changes).map (·.seq) =
      (List.range' seq changes.length).map fun k : Nat => (k : Int) := by
  induction changes generalizing seq with
  | nil => rfl
  | cons change changes ih =>
    rw [loggedRows, List.map_cons, (toRow_seq change version seq).2, ih]
    rfl

/-- The operations of a merge are found under the version it leads to. -/
lemma filter_loggedRows {version : Nat} {next : Int} (hnext : storedWord version = next)
    (seq : Nat) (changes : List PatternChange) (v : Int) :
    (loggedRows version seq changes).filter (·.resultingVersion == v) =
      if v = next then loggedRows version seq changes else [] := by
  split
  · next hv =>
    rw [List.filter_eq_self]
    intro row hrow
    rw [(mem_loggedRows hrow).1, hnext, hv, beq_self_eq_true]
  · next hv =>
    rw [List.filter_eq_nil_iff]
    intro row hrow
    rw [(mem_loggedRows hrow).1, hnext, beq_iff_eq]
    exact fun heq => hv heq.symm

/-- The operations of a merge go behind those of the versions before. -/
lemma numbersAt_append {version : Nat} {changes : List PatternChange}
    (hoperations : after.operations = store.operations ++ loggedRows version 0 changes)
    (hnext : storedWord version = store.version + 1)
    (past : ∀ row ∈ store.operations, row.resultingVersion ≤ store.version) (v : Int) :
    after.numbersAt v =
      if v = store.version + 1 then (List.range changes.length).map fun k : Nat => (k : Int)
      else store.numbersAt v := by
  unfold numbersAt
  rw [hoperations, List.filter_append, filter_loggedRows hnext]
  split
  · next hv =>
    have hold : store.operations.filter (·.resultingVersion == v) = [] := by
      rw [List.filter_eq_nil_iff]
      intro row hrow
      have := past row hrow
      rw [beq_iff_eq]
      omega
    rw [hold, List.nil_append, map_seq_loggedRows, List.range_eq_range']
  · rw [List.append_nil]

/-- A commit carries the chain on by one link. -/
lemma Chained.commit {delta : LearningDelta} {changes : List PatternChange}
    (chained : Chained store) (room : store.version + 1 < Word.half)
    (hpreceding : delta.precedingVersion = readWord store.version)
    (hresulting : delta.resultingVersion = delta.precedingVersion + 1)
    (hdeltas : after.deltas = store.deltas ++ [delta.toRow])
    (hoperations : after.operations =
      store.operations ++ loggedRows delta.resultingVersion 0 changes)
    (hversion : after.version = store.version + 1) (versioned : after.Versioned) :
    Chained after := by
  have counted := chained.counted
  have hword : (delta.precedingVersion : Int) = store.version := by
    rw [hpreceding, natCast_readWord counted]
  have hnext : storedWord delta.resultingVersion = store.version + 1 := by
    rw [hresulting, hpreceding, storedWord_readWord_succ counted room]
  refine {
    counted := versioned.counted
    deltas := ?deltas
    operations := ?operations
    numbered := ?numbered
    patterns := fun row hrow =>
      have ⟨hpositive, hle, _⟩ := versioned.dated.patterns row hrow
      ⟨hpositive, hle⟩
    tombstones := versioned.dated.tombstones }
  case deltas =>
    have hrow : (delta.toRow.precedingVersion, delta.toRow.resultingVersion) =
        (store.version, store.version + 1) := by
      rw [LearningDelta.toRow_version, hnext, LearningDelta.toRow_preceding,
        storedWord_of_lt (by omega), hword]
    have hlength : (store.version + 1).toNat = store.version.toNat + 1 := by omega
    rw [hdeltas, hversion, hlength, List.range_succ, List.map_append, List.map_append,
      chained.deltas, List.map_singleton, List.map_singleton, hrow, Int.toNat_of_nonneg counted]
  case operations =>
    intro row hrow
    rw [hversion]
    rw [hoperations] at hrow
    rcases List.mem_append.mp hrow with hold | hnew
    · have := chained.operations row hold
      omega
    · rw [(mem_loggedRows hnew).1, hnext]
      omega
  case numbered =>
    intro v
    have past := fun row hrow => (chained.operations row hrow).2
    rw [numbersAt_append hoperations hnext past]
    split
    · exact ⟨_, rfl⟩
    · exact chained.numbered v

end PatternStore

/-! ## Calls -/

/-- A call on a store fails and leaves it alone; or it leads nowhere and leaves it alone; or it
leads to the next version, with its delta and its operations at the end of the log. -/
def Learned.Advances (learned : Learned) (before : PatternStore) : Prop :=
  match learned.result with
  | .error _ => learned.store = before
  | .ok delta => (delta.precedingVersion : Int) = before.version ∧
    ((delta.resultingVersion = delta.precedingVersion ∧ learned.store = before) ∨
      (delta.resultingVersion = delta.precedingVersion + 1 ∧
        learned.store.version = delta.resultingVersion ∧
        learned.store.deltas = before.deltas ++ [delta.toRow] ∧
        ∃ rows, learned.store.operations = before.operations ++ rows ∧
          ∀ row ∈ rows, row.resultingVersion = delta.resultingVersion))

namespace LearnerCall

open PatternStore

variable {call : LearnerCall} {store : PatternStore}

/-- A call answers with the delta of its merge. Without a merge its delta leads nowhere. -/
theorem perform_result (call : LearnerCall) (projectId : String) (store : PatternStore) :
    match call.merged? store with
    | some merged => (call.perform projectId store).result = .ok merged.delta
    | none => ∀ delta, (call.perform projectId store).result = .ok delta →
      delta.precedingVersion = readWord store.version ∧
        delta.resultingVersion = delta.precedingVersion := by
  have hcases := call.perform_cases projectId store
  cases hmerged : call.merged? store with
  | none =>
    rw [hmerged] at hcases
    intro delta hdelta
    obtain ⟨origin, now, degraded, rfl⟩ := hcases.result delta hdelta
    exact ⟨rfl, rfl⟩
  | some merged =>
    rw [hmerged] at hcases
    simp only [hcases]

/-- What holds of a store between two calls. -/
structure Settled (store : PatternStore) : Prop where
  chained : store.Chained
  versioned : store.Versioned
  tracked : MergeState.Tracked store

lemma settled_empty : Settled .empty where
  chained := chained_empty
  versioned := ⟨Int.le_refl 0, dated_empty⟩
  tracked := ⟨by simp [empty], by simp [empty]⟩

/-- Only the database has changed. -/
lemma Settled.under (settled : Settled store) (faults : Faults) :
    Settled (store.under faults) where
  chained := settled.chained.congr rfl rfl rfl rfl rfl
  versioned := ⟨settled.versioned.counted, settled.versioned.dated.congr rfl rfl⟩
  tracked := settled.tracked.congr rfl rfl rfl

/-- A merge leads nowhere and leaves the store alone, or it adds one link to the chain. -/
theorem merged_advances {merged : Merged} (settled : Settled store)
    (hmerged : call.merged? store = some merged) :
    merged.delta.precedingVersion = readWord store.version ∧
    ((merged.delta.resultingVersion = merged.delta.precedingVersion ∧
        merged.store = store.under call.faults) ∨
      (merged.delta.resultingVersion = merged.delta.precedingVersion + 1 ∧
        merged.store.version = storedWord merged.delta.resultingVersion ∧
        merged.store.deltas = store.deltas ++ [merged.delta.toRow] ∧
        ∃ changes, merged.store.operations =
          store.operations ++ loggedRows merged.delta.resultingVersion 0 changes)) := by
  obtain ⟨start, final, changes, delta, written⟩ := merged?_written hmerged
  obtain ⟨_, _, _, hframe⟩ := written.writes.frame
  obtain ⟨-, hpreceding, ⟨hidle, hnil, hstore, hresulting⟩ |
    ⟨-, ⟨hresulting, -⟩, numbers, hstore⟩⟩ :=
      commit_ok written.commit (written.writes.honest written.honest)
  · refine ⟨hpreceding.trans written.preceding, .inl ⟨?_, ?_⟩⟩
    · rw [hresulting, hpreceding, written.resulting]
    · rw [hstore, written.writes.idle hnil, written.idle settled.tracked hidle]
  · rw [← hpreceding] at hresulting hstore
    refine ⟨hpreceding.trans written.preceding, .inr ⟨hresulting, ?_, ?_, changes, ?_⟩⟩
    · rw [hstore, hresulting]
    · rw [hstore, ← written.deltas, hframe]
    · rw [hstore, ← written.operations, hframe, hresulting]

/-- Every call advances a settled store properly, and leaves a settled one. -/
theorem perform_settled (projectId : String) (settled : Settled store)
    (room : store.version + 1 < Word.half) :
    (call.perform projectId store).Advances (store.under call.faults) ∧
      Settled (call.perform projectId store).store := by
  have counted := settled.versioned.counted
  have hword := natCast_readWord counted
  have hresult := call.perform_result projectId store
  have hleaves := call.perform_store projectId store
  have versioned := (call.perform_versioned projectId settled.versioned room).1
  have tracked := call.perform_tracked projectId settled.tracked
  cases hmerged : call.merged? store with
  | none =>
    rw [hmerged] at hresult hleaves
    constructor
    · cases hanswer : (call.perform projectId store).result with
      | error error => simpa only [Learned.Advances, hanswer] using hleaves
      | ok delta =>
        obtain ⟨hpreceding, hresulting⟩ := hresult delta hanswer
        simp only [Learned.Advances, hanswer]
        exact ⟨hpreceding ▸ hword, .inl ⟨hresulting, hleaves⟩⟩
    · rw [hleaves]
      exact settled.under call.faults
  | some merged =>
    rw [hmerged] at hresult hleaves
    simp only at hresult hleaves
    rw [hleaves] at versioned tracked
    simp only [Learned.Advances, hresult, hleaves]
    obtain ⟨hpreceding, ⟨hresulting, hstore⟩ |
      ⟨hresulting, hversion, hdeltas, changes, hoperations⟩⟩ := merged_advances settled hmerged
    · refine ⟨⟨hpreceding ▸ hword, .inl ⟨hresulting, hstore⟩⟩, ?_⟩
      rw [hstore]
      exact settled.under call.faults
    · have hstored : storedWord merged.delta.resultingVersion = store.version + 1 := by
        rw [hresulting, hpreceding, storedWord_readWord_succ counted room]
      have hnext : (merged.delta.resultingVersion : Int) = store.version + 1 := by omega
      refine ⟨⟨hpreceding ▸ hword, .inr ⟨hresulting, ?_, hdeltas, _, hoperations, ?_⟩⟩, ?_⟩
      · rw [hversion, hstored, hnext]
      · intro row hrow
        rw [(mem_loggedRows hrow).1, hstored, hnext]
      · exact {
          chained := settled.chained.commit room hpreceding hresulting hdeltas hoperations
            (hversion.trans hstored) versioned
          versioned := versioned
          tracked := tracked }

end LearnerCall

/-! ## Runs -/

namespace LearnerRun

open PatternStore LearnerCall

/-- Every call of a run advances the store that it meets. -/
theorem run_settled (projectId : String) {store : PatternStore} {calls : List LearnerCall}
    (settled : Settled store) (few : store.version + calls.length < Word.half) :
    (∀ step ∈ trace projectId store calls,
      (step.2.perform projectId step.1).Advances (step.1.under step.2.faults)) ∧
      Settled (run projectId store calls) := by
  induction calls generalizing store with
  | nil => exact ⟨fun _ hstep => absurd hstep List.not_mem_nil, settled⟩
  | cons call calls ih =>
    rw [List.length_cons] at few
    have room : store.version + 1 < Word.half := by omega
    obtain ⟨advances, later⟩ := call.perform_settled projectId settled room
    obtain ⟨-, -, hversion, -⟩ := call.perform_versioned projectId settled.versioned room
    obtain ⟨rest, last⟩ := ih later (by omega)
    exact ⟨List.forall_mem_cons.mpr ⟨advances, rest⟩, last⟩

/-- After any run from an empty store the log leads from 0 to the version of the store without
gaps, and every call of the run has failed, changed nothing, or logged exactly its delta. A run
has fewer calls than there are signed words. -/
theorem run_chained (projectId : String) (calls : List LearnerCall)
    (few : calls.length < Word.half) :
    (run projectId .empty calls).Chained ∧ ∀ step ∈ trace projectId .empty calls,
      (step.2.perform projectId step.1).Advances (step.1.under step.2.faults) := by
  have hroom : PatternStore.empty.version + (calls.length : Int) < Word.half := by
    simp only [empty]
    omega
  obtain ⟨advances, settled⟩ := run_settled projectId settled_empty hroom
  exact ⟨settled.chained, advances⟩

/-! A run that brings a pattern in, deletes a file that is not tracked, and brings the pattern in
again. -/

def sampleIdleCalls : List LearnerCall :=
  [sampleCall (.importSeeds [⟨.quotes .single, 2, 0.75, ["lang:python"]⟩]),
    sampleCall (.learn ⟨fun _ => .ok "", fun _ _ => .ok ⟨[], false⟩⟩ [.deleted "a.py"] .manual),
    sampleCall (.importSeeds [⟨.quotes .single, 3, 0.75, []⟩])]

theorem sampleIdleCalls_chained : sampleIdleCalls.length < Word.half ∧
    (run "sample" .empty sampleIdleCalls).version = 2 ∧
    (run "sample" .empty sampleIdleCalls).Chained ∧
    ∀ step ∈ trace "sample" .empty sampleIdleCalls,
      (step.2.perform "sample" step.1).Advances (step.1.under step.2.faults) :=
  ⟨by decide, by decide +kernel, run_chained "sample" sampleIdleCalls (by decide)⟩

end LearnerRun

end HouseStyle
