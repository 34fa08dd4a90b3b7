import HouseStyle.Proofs.Store.Writes
import Mathlib.Data.List.TakeWhile

/-!
# Writes on a sound database

A database without faults refuses a write only for what is written: a confidence that is no
number, a delta or an operation that is in the log already, or a version that follows another
one than that of the store.
-/

namespace HouseStyle

lemma exists_bind {ε α β : Type} {x : Except ε α} {f : α → Except ε β} (hx : ∃ a, x = .ok a)
    (hf : ∀ a, x = .ok a → ∃ b, f a = .ok b) : ∃ b, x >>= f = .ok b := by
  obtain ⟨a, rfl⟩ := hx
  exact hf a rfl

lemma Faults.allows_none (table : Table) (kind : WriteKind) :
    Faults.none.allows table kind = .ok true := rfl

/-! ## Tables -/

namespace Table

variable {ρ : Type} (table : Table)

lemma appendAll_succeeds (rows new : List ρ) :
    ∃ left, table.appendAll .none rows new = .ok left := by
  unfold appendAll
  split
  · exact ⟨_, rfl⟩
  · exact ⟨_, rfl⟩

lemma updateWhere_succeeds (rows : List ρ) (fits : ρ → Bool) (change : ρ → ρ) :
    ∃ left, table.updateWhere .none rows fits change = .ok left := by
  dsimp only [updateWhere]
  split
  · exact ⟨_, rfl⟩
  · exact ⟨_, rfl⟩

lemma deleteWhere_succeeds (rows : List ρ) (fits : ρ → Bool) :
    ∃ left, table.deleteWhere .none rows fits = .ok left := by
  dsimp only [deleteWhere]
  split
  · exact ⟨_, rfl⟩
  · exact ⟨_, rfl⟩

lemma upsert_succeeds (rows : List ρ) (sameKey : ρ → ρ → Bool) (merge : ρ → ρ → ρ) (row : ρ) :
    ∃ left, table.upsert .none rows sameKey merge row = .ok left := by
  unfold upsert
  refine exists_bind ⟨_, Faults.allows_none _ _⟩ fun allowed ha => ?_
  obtain rfl := Except.ok.inj ha
  rw [if_pos rfl]
  split
  · exact exists_bind (table.updateWhere_succeeds _ _ _) fun left _ => ⟨_, rfl⟩
  · exact ⟨_, rfl⟩

end Table

/-! ## Writes of a pattern store -/

namespace PatternStore

variable {store : PatternStore} (sound : store.faults = .none)

include sound

lemma upsertPattern_succeeds {row : PatternRow} (number : row.confidence.isNaN = false) :
    ∃ after, store.upsertPattern row = .ok after := by
  unfold upsertPattern
  rw [sound]
  refine exists_bind ⟨_, Faults.allows_none _ _⟩ fun allowed ha => ?_
  obtain rfl := Except.ok.inj ha
  rw [if_pos rfl]
  have hstored : Table.patterns.requireNumber "confidence" row.confidence = .ok () := by
    rw [Table.requireNumber, number]
    rfl
  refine exists_bind ⟨(), hstored⟩ fun _ _ => ?_
  exact exists_bind (Table.patterns.upsert_succeeds _ _ _ _) fun _ _ => ⟨_, rfl⟩

lemma deletePattern_succeeds (id : String) : ∃ after, store.deletePattern id = .ok after := by
  unfold deletePattern
  rw [sound]
  refine exists_bind (Table.patterns.deleteWhere_succeeds _ _) fun left _ => ?_
  simp only
  split <;> exact ⟨_, rfl⟩

lemma insertTombstone_succeeds (row : TombstoneRow) :
    ∃ after, store.insertTombstone row = .ok after := by
  unfold insertTombstone
  rw [sound]
  exact ⟨_, rfl⟩

lemma insertConcepts_succeeds {rows : List ConceptRow}
    (numbers : ∀ row ∈ rows, row.confidence.isNaN = false) :
    ∃ after, store.insertConcepts rows = .ok after := by
  have hall : rows.takeWhile (fun row => !row.confidence.isNaN) = rows :=
    List.takeWhile_eq_self_iff.mpr fun row hrow => by rw [numbers row hrow]; rfl
  unfold insertConcepts takeConcepts
  rw [sound, Faults.allows_none]
  simp only [hall, if_true]
  exact ⟨_, rfl⟩

lemma deleteFileConcepts_succeeds (path : String) :
    ∃ after, store.deleteFileConcepts path = .ok after := by
  unfold deleteFileConcepts
  rw [sound]
  exact exists_bind (Table.concepts.deleteWhere_succeeds _ _) fun _ _ => ⟨_, rfl⟩

lemma rekeyConcepts_succeeds (source target : String) :
    ∃ after, store.rekeyConcepts source target = .ok after := by
  unfold rekeyConcepts
  rw [sound]
  exact exists_bind (Table.concepts.updateWhere_succeeds _ _ _) fun _ _ => ⟨_, rfl⟩

lemma insertEvidence_succeeds (rows : List EvidenceRow) :
    ∃ after, store.insertEvidence rows = .ok after := by
  unfold insertEvidence
  rw [sound]
  exact exists_bind (Table.evidence.appendAll_succeeds _ _) fun _ _ => ⟨_, rfl⟩

lemma deleteFileEvidence_succeeds (path : String) :
    ∃ after, store.deleteFileEvidence path = .ok after := by
  unfold deleteFileEvidence
  rw [sound]
  exact exists_bind (Table.evidence.deleteWhere_succeeds _ _) fun _ _ => ⟨_, rfl⟩

lemma rekeyEvidence_succeeds (source target : String) :
    ∃ after, store.rekeyEvidence source target = .ok after := by
  unfold rekeyEvidence
  rw [sound]
  exact exists_bind (Table.evidence.updateWhere_succeeds _ _ _) fun _ _ => ⟨_, rfl⟩

lemma upsertFile_succeeds (row : TrackedFile) : ∃ after, store.upsertFile row = .ok after := by
  unfold upsertFile
  rw [sound]
  exact exists_bind (Table.trackedFiles.upsert_succeeds _ _ _ _) fun _ _ => ⟨_, rfl⟩

lemma deleteFile_succeeds (path : String) : ∃ after, store.deleteFile path = .ok after := by
  unfold deleteFile
  rw [sound]
  refine exists_bind (Table.trackedFiles.deleteWhere_succeeds _ _) fun left _ => ?_
  simp only
  split <;> exact ⟨_, rfl⟩

lemma rekeyFile_succeeds {source target : String} (free : store.getFile? target = none) :
    ∃ after, store.rekeyFile source target = .ok after := by
  unfold rekeyFile
  rw [sound]
  refine exists_bind (Table.trackedFiles.updateWhere_succeeds _ _ _) fun left _ => ?_
  simp only [free, Option.isSome_none, Bool.false_eq_true, and_false, if_false]
  exact ⟨_, rfl⟩

lemma advanceVersion_succeeds {next : Int} (h : next = Int.bmod (store.version + 1) Word.bound) :
    ∃ after, store.advanceVersion store.version next = .ok after := by
  unfold advanceVersion
  rw [sound, if_neg (by simpa using h)]
  simp only [ne_eq, not_true_eq_false, if_false]
  exact ⟨_, rfl⟩

lemma insertDelta_succeeds {row : DeltaRow}
    (fresh : ∀ r ∈ store.deltas, r.resultingVersion ≠ row.resultingVersion ∧ r.id ≠ row.id) :
    ∃ after, store.insertDelta row = .ok after := by
  have hversion : store.deltas.any (·.resultingVersion == row.resultingVersion) = false := by
    simpa using fun r hr => (fresh r hr).1
  have hid : store.deltas.any (·.id == row.id) = false := by
    simpa using fun r hr => (fresh r hr).2
  unfold insertDelta
  rw [sound, hversion, hid]
  exact ⟨_, rfl⟩

lemma insertOperation_succeeds {row : OperationRow}
    (hname : row.op = upsertName ∨ row.op = removeName)
    (fresh : ∀ r ∈ store.operations, r.resultingVersion = row.resultingVersion → r.seq ≠ row.seq) :
    ∃ after, store.insertOperation row = .ok after := by
  have htaken : (store.operations.any fun r =>
      r.resultingVersion == row.resultingVersion && r.seq == row.seq) = false := by
    simpa using fresh
  unfold insertOperation
  rw [sound, htaken, if_neg (by tauto)]
  exact ⟨_, rfl⟩

end PatternStore

end HouseStyle
