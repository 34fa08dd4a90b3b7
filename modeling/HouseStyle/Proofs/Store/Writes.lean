import HouseStyle.Store.PatternForm
import HouseStyle.Store.PatternStore
import Mathlib.Tactic.Common

/-!
# What a write does

A database that drops no write in silence either refuses a write or carries it out. For
every write of a pattern store there is one lemma: when it goes through, one table has
changed, and it says how. The numbers of rows are of no interest and stay unknown.
-/

namespace HouseStyle

/-- Both halves of a computation that goes through go through. -/
lemma bind_eq_ok {ε α β : Type} {x : Except ε α} {f : α → Except ε β} {b : β} :
    x >>= f = .ok b ↔ ∃ a, x = .ok a ∧ f a = .ok b := by
  cases x <;> simp [bind, Except.bind]

lemma pure_eq_ok {ε α : Type} {a b : α} : (pure a : Except ε α) = .ok b ↔ a = b := by
  simp [pure, Except.pure]

lemma mapError_eq_ok {ε ε' α : Type} {f : ε → ε'} {x : Except ε α} {a : α} :
    x.mapError f = .ok a ↔ x = .ok a := by
  cases x <;> simp [Except.mapError]

/-- Where an answer's first part comes from. -/
lemma map_fst_eq_ok {ε α β : Type} {x : Except ε (α × β)} {a : α} (h : x.map (·.1) = .ok a) :
    ∃ b, x = .ok (a, b) := by
  cases x with
  | error error => cases h
  | ok pair =>
    obtain rfl := Except.ok.inj h
    exact ⟨pair.2, rfl⟩

lemma throw_bind {ε α β : Type} (e : ε) (f : α → Except ε β) :
    (throw e : Except ε α) >>= f = .error e := rfl

lemma exists_ok {ε α : Type} {x : Except ε α} (h : x.isOk = true) : ∃ a, x = .ok a := by
  cases x with
  | ok a => exact ⟨a, rfl⟩
  | error e => cases h

namespace Faults

/-- A database may refuse writes, but it does not lose them. -/
def Honest (faults : Faults) : Prop := ∀ block ∈ faults.blocks, block.effect ≠ .drop

lemma honest_none : Faults.none.Honest := by simp [Honest, none]

lemma Honest.allows {faults : Faults} (h : faults.Honest) {table : Table} {kind : WriteKind}
    {allowed : Bool} (ha : faults.allows table kind = .ok allowed) : allowed = true := by
  unfold Faults.allows at ha
  cases heffect : faults.effect? table kind with
  | none => simpa [heffect] using ha.symm
  | some effect =>
    cases effect with
    | fail message => simp [heffect] at ha
    | drop =>
      obtain ⟨block, hfound, heq⟩ := Option.map_eq_some_iff.mp heffect
      exact absurd heq (h block (List.mem_of_find?_eq_some hfound))

end Faults

/-! ## Tables -/

namespace Table

variable {ρ : Type} {table : Table} {faults : Faults}

lemma appendAll_ok (honest : faults.Honest) {rows new left : List ρ}
    (h : table.appendAll faults rows new = .ok left) : left = rows ++ new := by
  unfold appendAll at h
  split at h
  · next hnew =>
    rw [List.isEmpty_iff.mp hnew, List.append_nil, ← pure_eq_ok.mp h]
  · simp only [bind_eq_ok, pure_eq_ok] at h
    obtain ⟨allowed, ha, h⟩ := h
    rw [honest.allows ha, if_pos rfl] at h
    exact h.symm

lemma updateWhere_ok (honest : faults.Honest) {rows left : List ρ} {fits : ρ → Bool}
    {change : ρ → ρ} {count : Nat}
    (h : table.updateWhere faults rows fits change = .ok (left, count)) :
    left = rows.map (fun row => if fits row then change row else row) ∧
      count = rows.countP fits := by
  dsimp only [updateWhere] at h
  split at h
  · next hcount =>
    obtain ⟨rfl, rfl⟩ := by simpa [pure, Except.pure] using h
    have hnone : ∀ row ∈ rows, fits row = false := by
      simpa [List.countP_eq_zero] using hcount
    refine ⟨?_, hcount.symm⟩
    rw [List.map_congr_left (g := id) (fun row hrow => by simp [hnone row hrow]), List.map_id]
  · rw [bind_eq_ok] at h
    obtain ⟨allowed, ha, h⟩ := h
    rw [honest.allows ha, if_pos rfl, pure_eq_ok, Prod.mk.injEq] at h
    exact ⟨h.1.symm, h.2.symm⟩

lemma deleteWhere_ok (honest : faults.Honest) {rows left : List ρ} {fits : ρ → Bool}
    {count : Nat} (h : table.deleteWhere faults rows fits = .ok (left, count)) :
    left = rows.filter (fun row => !fits row) ∧ count = rows.countP fits := by
  dsimp only [deleteWhere] at h
  split at h
  · next hcount =>
    obtain ⟨rfl, rfl⟩ := by simpa [pure, Except.pure] using h
    have hnone : ∀ row ∈ rows, fits row = false := by
      simpa [List.countP_eq_zero] using hcount
    exact ⟨(List.filter_eq_self.mpr fun row hrow => by simp [hnone row hrow]).symm, hcount.symm⟩
  · rw [bind_eq_ok] at h
    obtain ⟨allowed, ha, h⟩ := h
    rw [honest.allows ha, if_pos rfl, pure_eq_ok, Prod.mk.injEq] at h
    exact ⟨h.1.symm, h.2.symm⟩

/-- The rows after an upsert that goes through. -/
def put (rows : List ρ) (sameKey : ρ → ρ → Bool) (merge : ρ → ρ → ρ) (row : ρ) : List ρ :=
  if rows.any (sameKey row) then
    rows.map fun old => if sameKey row old then merge old row else old
  else rows ++ [row]

lemma upsert_ok (honest : faults.Honest) {rows left : List ρ} {sameKey : ρ → ρ → Bool}
    {merge : ρ → ρ → ρ} {row : ρ}
    (h : table.upsert faults rows sameKey merge row = .ok left) :
    left = put rows sameKey merge row := by
  unfold upsert at h
  rw [bind_eq_ok] at h
  obtain ⟨allowed, ha, h⟩ := h
  rw [honest.allows ha, if_pos rfl] at h
  unfold put
  split at h
  · next hany =>
    rw [bind_eq_ok] at h
    obtain ⟨⟨updated, count⟩, hupdate, h⟩ := h
    rw [pure_eq_ok] at h
    rw [if_pos hany, ← h, (updateWhere_ok honest hupdate).1]
  · next hany =>
    rw [pure_eq_ok] at h
    rw [if_neg hany, h]

lemma requireNumber_ok {column : String} {x : Float} (h : table.requireNumber column x = .ok ()) :
    x.isNaN = false := by
  unfold requireNumber at h
  split at h
  · simp at h
  · next hx => simpa using hx

end Table

/-! ## Writes of a pattern store -/

namespace PatternStore

variable {store after : PatternStore}

def samePatternId (a b : PatternRow) : Bool := a.patternId == b.patternId

def sameFilePath (a b : TrackedFile) : Bool := a.filePath == b.filePath

lemma upsertPattern_ok {row : PatternRow}
    (h : store.upsertPattern row = .ok after) (honest : store.faults.Honest) :
    row.confidence.isNaN = false ∧ ∃ numbers, after = { store with
      patterns := Table.put store.patterns samePatternId mergePattern
        { row with confidence := Decimal.unsignedZero row.confidence }
      numbers } := by
  simp only [upsertPattern, bind_eq_ok] at h
  obtain ⟨allowed, ha, h⟩ := h
  rw [honest.allows ha, if_pos rfl] at h
  simp only [bind_eq_ok, pure_eq_ok] at h
  obtain ⟨⟨⟩, hnumber, patterns, hpatterns, rfl⟩ := h
  obtain rfl := Table.upsert_ok honest hpatterns
  exact ⟨Table.requireNumber_ok hnumber, _, rfl⟩

lemma deletePattern_ok {id : String} {deleted : Bool}
    (h : store.deletePattern id = .ok (after, deleted)) (honest : store.faults.Honest) :
    ∃ numbers, after = { store with
      patterns := store.patterns.filter (fun row => !(row.patternId == id)), numbers } := by
  simp only [deletePattern, bind_eq_ok] at h
  obtain ⟨⟨patterns, count⟩, hdelete, h⟩ := h
  obtain ⟨hrows, hcount⟩ := Table.deleteWhere_ok honest hdelete
  simp only at h
  split at h
  · next hzero =>
    obtain ⟨rfl, -⟩ := Prod.mk.inj (pure_eq_ok.mp h)
    rw [hzero] at hcount
    have hnone : ∀ row ∈ store.patterns, (row.patternId == id) = false := by
      simpa [List.countP_eq_zero] using hcount.symm
    refine ⟨store.numbers, ?_⟩
    rw [List.filter_eq_self.mpr fun row hrow => by simp [hnone row hrow]]
  · obtain ⟨rfl, -⟩ := Prod.mk.inj (pure_eq_ok.mp h)
    exact ⟨_, by rw [hrows]⟩

/-- Tombstones with one more, in place of the one for the same pattern and version. -/
def addTombstone (rows : List TombstoneRow) (row : TombstoneRow) : List TombstoneRow :=
  rows.filter (fun r => !(r.patternId == row.patternId && r.version == row.version)) ++ [row]

lemma insertTombstone_ok {row : TombstoneRow} (h : store.insertTombstone row = .ok after)
    (honest : store.faults.Honest) : ∃ numbers, after = { store with
      tombstones := addTombstone store.tombstones row, numbers } := by
  simp only [insertTombstone, bind_eq_ok] at h
  obtain ⟨allowed, ha, h⟩ := h
  rw [honest.allows ha, if_pos rfl, pure_eq_ok] at h
  exact ⟨_, h.symm⟩

/-- A concept as it is stored: its zero has no sign. -/
def storedConcept (row : ConceptRow) : ConceptRow :=
  { row with confidence := Decimal.unsignedZero row.confidence }

lemma insertConcepts_ok {rows : List ConceptRow}
    (h : store.insertConcepts rows = .ok after) (honest : store.faults.Honest) :
    ∃ numbers, after = { store with
      concepts := store.concepts ++ rows.map storedConcept, numbers } := by
  unfold insertConcepts takeConcepts at h
  cases ha : store.faults.allows .concepts .insert with
  | error error =>
    cases rows with
    | nil =>
      simp only [ha, List.isEmpty_nil, if_true, Except.map, Except.ok.injEq] at h
      exact ⟨store.numbers, by simp [← h]⟩
    | cons row rows => simp [ha, Except.map] at h
  | ok allowed =>
    obtain rfl := honest.allows ha
    simp only [ha] at h
    split at h
    · next hlength =>
      have hall : rows.takeWhile (fun row => !row.confidence.isNaN) = rows :=
        (List.takeWhile_prefix _).eq_of_length hlength
      rw [hall] at h
      obtain rfl := by simpa [Except.map] using h
      exact ⟨_, rfl⟩
    · simp [Except.map] at h

lemma deleteFileConcepts_ok {path : String} {count : Nat}
    (h : store.deleteFileConcepts path = .ok (after, count)) (honest : store.faults.Honest) :
    after = { store with
      concepts := store.concepts.filter fun row => !(row.filePath == path) } := by
  simp only [deleteFileConcepts, bind_eq_ok, pure_eq_ok] at h
  obtain ⟨⟨concepts, _⟩, hdelete, h⟩ := h
  obtain rfl := (Table.deleteWhere_ok honest hdelete).1
  exact (Prod.mk.inj h).1.symm

lemma rekeyConcepts_ok {source target : String} {count : Nat}
    (h : store.rekeyConcepts source target = .ok (after, count)) (honest : store.faults.Honest) :
    after = { store with
      concepts := store.concepts.map fun row =>
        if row.filePath == source then { row with filePath := target } else row } := by
  simp only [rekeyConcepts, bind_eq_ok, pure_eq_ok] at h
  obtain ⟨⟨concepts, _⟩, hupdate, h⟩ := h
  obtain rfl := (Table.updateWhere_ok honest hupdate).1
  exact (Prod.mk.inj h).1.symm

lemma insertEvidence_ok {rows : List EvidenceRow}
    (h : store.insertEvidence rows = .ok after) (honest : store.faults.Honest) :
    ∃ numbers, after = { store with evidence := store.evidence ++ rows, numbers } := by
  simp only [insertEvidence, bind_eq_ok, pure_eq_ok] at h
  obtain ⟨evidence, happend, rfl⟩ := h
  obtain rfl := Table.appendAll_ok honest happend
  exact ⟨_, rfl⟩

lemma deleteFileEvidence_ok {path : String} {count : Nat}
    (h : store.deleteFileEvidence path = .ok (after, count)) (honest : store.faults.Honest) :
    after = { store with
      evidence := store.evidence.filter fun row => !(row.filePath == path) } := by
  simp only [deleteFileEvidence, bind_eq_ok, pure_eq_ok] at h
  obtain ⟨⟨evidence, _⟩, hdelete, h⟩ := h
  obtain rfl := (Table.deleteWhere_ok honest hdelete).1
  exact (Prod.mk.inj h).1.symm

lemma rekeyEvidence_ok {source target : String} {count : Nat}
    (h : store.rekeyEvidence source target = .ok (after, count)) (honest : store.faults.Honest) :
    after = { store with
      evidence := store.evidence.map fun row =>
        if row.filePath == source then { row with filePath := target } else row } := by
  simp only [rekeyEvidence, bind_eq_ok, pure_eq_ok] at h
  obtain ⟨⟨evidence, _⟩, hupdate, h⟩ := h
  obtain rfl := (Table.updateWhere_ok honest hupdate).1
  exact (Prod.mk.inj h).1.symm

lemma upsertFile_ok {row : TrackedFile}
    (h : store.upsertFile row = .ok after) (honest : store.faults.Honest) :
    ∃ numbers, after = { store with
      files := Table.put store.files sameFilePath (fun _ new => new) row, numbers } := by
  simp only [upsertFile, bind_eq_ok, pure_eq_ok] at h
  obtain ⟨files, hupsert, rfl⟩ := h
  obtain rfl := Table.upsert_ok honest hupsert
  exact ⟨_, rfl⟩

lemma deleteFile_ok {path : String} {count : Nat}
    (h : store.deleteFile path = .ok (after, count)) (honest : store.faults.Honest) :
    (∃ numbers, after = { store with
      files := store.files.filter (fun row => !(row.filePath == path)), numbers }) ∧
      count = store.files.countP (·.filePath == path) := by
  simp only [deleteFile, bind_eq_ok] at h
  obtain ⟨⟨files, count⟩, hdelete, h⟩ := h
  obtain ⟨hrows, hcount⟩ := Table.deleteWhere_ok honest hdelete
  simp only at h
  split at h
  · next hzero =>
    obtain ⟨rfl, rfl⟩ := Prod.mk.inj (pure_eq_ok.mp h)
    rw [hzero] at hcount
    have hnone : ∀ row ∈ store.files, (row.filePath == path) = false := by
      simpa [List.countP_eq_zero] using hcount.symm
    refine ⟨⟨store.numbers, ?_⟩, hcount⟩
    rw [List.filter_eq_self.mpr fun row hrow => by simp [hnone row hrow]]
  · obtain ⟨rfl, rfl⟩ := Prod.mk.inj (pure_eq_ok.mp h)
    exact ⟨⟨_, by rw [hrows]⟩, hcount⟩

lemma rekeyFile_ok {source target : String} {count : Nat}
    (h : store.rekeyFile source target = .ok (after, count)) (honest : store.faults.Honest) :
    after = { store with
      files := store.files.map fun row =>
        if row.filePath == source then { row with filePath := target } else row } := by
  simp only [rekeyFile, bind_eq_ok] at h
  obtain ⟨⟨files, count⟩, hupdate, h⟩ := h
  obtain rfl := (Table.updateWhere_ok honest hupdate).1
  simp only at h
  split at h
  · simp [throw, throwThe, MonadExceptOf.throw, bind, Except.bind] at h
  · exact (Prod.mk.inj (pure_eq_ok.mp h)).1.symm

lemma advanceVersion_ok {expected next : Int}
    (h : store.advanceVersion expected next = .ok after) (honest : store.faults.Honest) :
    store.version = expected ∧ after = { store with version := next } := by
  unfold advanceVersion at h
  by_cases hnext : next = Int.bmod (expected + 1) Word.bound
  · rw [if_neg (by simpa using hnext)] at h
    by_cases hversion : store.version = expected
    · simp only [hversion, ne_eq, not_true_eq_false, if_false, bind_eq_ok] at h
      obtain ⟨allowed, ha, h⟩ := h
      rw [honest.allows ha, if_pos rfl, pure_eq_ok] at h
      exact ⟨hversion, h.symm⟩
    · simp [hversion, throw_bind] at h
  · rw [if_pos (by simpa using hnext), throw_bind] at h
    cases h

lemma insertDelta_ok {row : DeltaRow} (h : store.insertDelta row = .ok after)
    (honest : store.faults.Honest) :
    (∀ r ∈ store.deltas, r.resultingVersion ≠ row.resultingVersion ∧ r.id ≠ row.id) ∧
    ∃ numbers, after = { store with deltas := store.deltas ++ [row], numbers } := by
  simp only [insertDelta, bind_eq_ok] at h
  obtain ⟨allowed, ha, h⟩ := h
  rw [honest.allows ha, if_pos rfl] at h
  by_cases hversion : (store.deltas.any (·.resultingVersion == row.resultingVersion)) = true
  · rw [if_pos hversion, throw_bind] at h
    cases h
  rw [if_neg hversion] at h
  by_cases hid : (store.deltas.any (·.id == row.id)) = true
  · rw [if_pos hid, throw_bind] at h
    cases h
  rw [if_neg hid] at h
  refine ⟨?_, _, (pure_eq_ok.mp h).symm⟩
  intro r hr
  simp only [List.any_eq_true, beq_iff_eq, not_exists, not_and] at hversion hid
  exact ⟨hversion r hr, hid r hr⟩

lemma insertOperation_ok {row : OperationRow} (h : store.insertOperation row = .ok after)
    (honest : store.faults.Honest) :
    ∃ numbers, after = { store with operations := store.operations ++ [row], numbers } := by
  simp only [insertOperation, bind_eq_ok] at h
  obtain ⟨allowed, ha, h⟩ := h
  rw [honest.allows ha, if_pos rfl] at h
  by_cases hname : row.op ≠ upsertName ∧ row.op ≠ removeName
  · rw [if_pos hname, throw_bind] at h
    cases h
  rw [if_neg hname] at h
  by_cases htaken : (store.operations.any fun r =>
      r.resultingVersion == row.resultingVersion && r.seq == row.seq) = true
  · rw [if_pos htaken, throw_bind] at h
    cases h
  rw [if_neg htaken] at h
  exact ⟨_, (pure_eq_ok.mp h).symm⟩

end PatternStore

end HouseStyle
