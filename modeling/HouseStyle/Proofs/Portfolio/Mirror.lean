import HouseStyle.Portfolio.Sync
import HouseStyle.Proofs.Learning.Calls

/-!
# What a project has contributed so far

A project mirrors its store up to a checkpoint. Every pattern that was not written since has
exactly its occurrence. A pattern written since still has the occurrence of before, if any, or
its tombstone is yet to be seen. Learning goes on at later versions and keeps that so.
-/

namespace HouseStyle

/-- What an occurrence says, beside the time at which it was written. -/
structure Share where
  signature : String
  projectId : String
  patternId : String
  frequency : Int
  confidence : Float
  languages : String

def OccurrenceRow.share (row : OccurrenceRow) : Share :=
  ⟨row.signature, row.projectId, row.patternId, row.frequency, row.confidence, row.languages⟩

/-- What the occurrence of a pattern has to say. -/
def Pattern.share (p : Pattern) (projectId : String) : Share where
  signature := p.content.signature
  projectId
  patternId := p.id
  frequency := (min p.frequency Word.greatest : Nat)
  confidence := p.confidence
  languages := (Json.ofTexts p.languages).render

/-- The occurrences of one pattern of a project. -/
def occurrencesOf (rows : List OccurrenceRow) (projectId id : String) : List OccurrenceRow :=
  rows.filter fun row => row.projectId == projectId && row.patternId == id

namespace PatternStore

variable {store after : PatternStore}

/-! ## Versions -/

/-- Patterns and tombstones carry the versions at which they were written, up to a version. A
pattern that came back is not older than the tombstone it left. -/
structure Dated (version : Int) (store : PatternStore) : Prop where
  nodup : (store.patterns.map (·.patternId)).Nodup
  patterns : ∀ row ∈ store.patterns, 0 < row.version ∧ row.version ≤ version ∧
    Decimal.unsignedZero row.confidence = row.confidence
  tombstones : ∀ t ∈ store.tombstones, 0 < t.version ∧ t.version ≤ version
  buried : ∀ t ∈ store.tombstones, ∀ row ∈ store.patterns, row.patternId = t.patternId →
    t.version ≤ row.version

lemma dated_empty : Dated 0 .empty where
  nodup := .nil
  patterns := by simp [empty]
  tombstones := by simp [empty]
  buried := by simp [empty]

lemma Dated.mono {version later : Int} (dated : Dated version store) (h : version ≤ later) :
    Dated later store where
  nodup := dated.nodup
  patterns := fun row hrow =>
    have ⟨hpositive, hle, hzero⟩ := dated.patterns row hrow
    ⟨hpositive, Int.le_trans hle h, hzero⟩
  tombstones := fun t ht =>
    have ⟨hpositive, hle⟩ := dated.tombstones t ht
    ⟨hpositive, Int.le_trans hle h⟩
  buried := dated.buried

/-- Only these tables matter. -/
lemma Dated.congr {version : Int} (dated : Dated version store)
    (hpatterns : after.patterns = store.patterns)
    (htombstones : after.tombstones = store.tombstones) : Dated version after where
  nodup := by rw [hpatterns]; exact dated.nodup
  patterns := by rw [hpatterns]; exact dated.patterns
  tombstones := by rw [htombstones]; exact dated.tombstones
  buried := by rw [hpatterns, htombstones]; exact dated.buried

lemma mem_addTombstone {rows : List TombstoneRow} {row t : TombstoneRow}
    (h : t ∈ addTombstone rows row) : t ∈ rows ∨ t = row := by
  rcases List.mem_append.mp h with hold | hnew
  · exact .inl (List.mem_filter.mp hold).1
  · exact .inr (List.mem_singleton.mp hnew)

lemma Written.dated {version : Nat} {now : Int} {change : Option PatternChange}
    (h : Written version now store after change) (hpositive : 0 < version)
    (hversion : version < Word.half) (dated : Dated version store) : Dated version after := by
  have hstored := storedWord_of_lt hversion
  cases h with
  | kept => exact dated
  | buried p numbers hread =>
    exact {
      nodup := Table.nodup_filter _ _ _ dated.nodup
      patterns := fun row hrow => dated.patterns row (List.mem_filter.mp hrow).1
      tombstones := by
        intro t ht
        rcases mem_addTombstone ht with hold | rfl
        · exact dated.tombstones t hold
        · simp only [tombstoneOf, hstored]
          omega
      buried := by
        intro t ht row hrow hid
        obtain ⟨hmem, hother⟩ := List.mem_filter.mp hrow
        rcases mem_addTombstone ht with hold | rfl
        · exact dated.buried t hold row hmem hid
        · simp [tombstoneOf] at hid
          simp [hid] at hother }
  | put existing p numbers hread upserted =>
    have hput : ∀ row ∈ putRows store.patterns p, row ∈ store.patterns ∨
        (row.version = version ∧ Decimal.unsignedZero row.confidence = row.confidence) := by
      have hfresh : p.freshRow.version = version ∧
          Decimal.unsignedZero p.freshRow.confidence = p.freshRow.confidence := by
        rw [Pattern.freshRow_version, Pattern.freshRow_confidence, upserted.version, hstored]
        exact ⟨rfl, Decimal.unsignedZero_idem p.confidence⟩
      intro row hrow
      rcases mem_putRows hrow with hold | rfl | ⟨old, -, rfl⟩
      · exact .inl hold
      · exact .inr hfresh
      · rw [mergePattern_version, mergePattern_confidence]
        exact .inr hfresh
    exact {
      nodup := keyed_patterns.nodup_put _ dated.nodup
      patterns := by
        intro row hrow
        rcases hput row hrow with hold | ⟨hnew, hzero⟩
        · exact dated.patterns row hold
        · exact ⟨by omega, by omega, hzero⟩
      tombstones := dated.tombstones
      buried := by
        intro t ht row hrow hid
        rcases hput row hrow with hold | ⟨hnew, -⟩
        · exact dated.buried t ht row hold hid
        · rw [hnew]
          exact (dated.tombstones t ht).2 }

lemma Writes.dated {version : Nat} {now : Int} {changes : List PatternChange}
    (h : Writes version now store after changes) (hpositive : 0 < version)
    (hversion : version < Word.half) (dated : Dated version store) : Dated version after := by
  induction h with
  | nil => exact dated
  | cons first _ ih => exact ih (first.dated hpositive hversion dated)

/-- Writes of which nothing is reported have written nothing. -/
lemma Writes.idle {version : Nat} {now : Int} {changes : List PatternChange}
    (h : Writes version now store after changes) (hnil : changes = []) : after = store := by
  induction h with
  | nil => rfl
  | cons first _ ih =>
    cases first with
    | kept => exact ih hnil
    | buried => cases hnil
    | put => cases hnil

/-! ## Mirrors -/

/-- How a project mirrors one pattern of a store up to a checkpoint. Unless a tombstone is yet
to be seen, what there is has the signature of the stored pattern; and a pattern that was not
written since has its own occurrence. -/
structure MirroredAt (checkpoint : Int) (store : PatternStore) (projectId : String)
    (rows : List OccurrenceRow) (id : String) : Prop where
  settled : (∀ t ∈ store.tombstones, t.patternId = id → t.version ≤ checkpoint) →
    occurrencesOf rows projectId id = [] ∨ ∃ o row content,
      occurrencesOf rows projectId id = [o] ∧ store.getPattern? id = some row ∧
        Pattern.readContent row.content = .ok content ∧ o.signature = content.signature
  current : ∀ row, store.getPattern? id = some row → row.version ≤ checkpoint →
    ∃ p, Pattern.ofRow row = .ok p ∧
      (occurrencesOf rows projectId id).map (·.share) = [p.share projectId]

/-- A project mirrors all patterns of a store, and no others. -/
def Mirrored (checkpoint : Int) (store : PatternStore) (projectId : String)
    (rows : List OccurrenceRow) : Prop :=
  ∀ id, MirroredAt checkpoint store projectId rows id

variable {checkpoint : Int} {projectId : String} {rows : List OccurrenceRow}

/-- Without any occurrence nothing is mirrored, up to the version before the first. -/
lemma mirrored_zero {version : Int} (dated : Dated version store)
    (hnone : ∀ row ∈ rows, row.projectId ≠ projectId) : Mirrored 0 store projectId rows := by
  intro id
  refine ⟨fun _ => .inl ?_, fun row hrow hold => ?_⟩
  · rw [occurrencesOf, List.filter_eq_nil_iff]
    intro row hrow
    simp [hnone row hrow]
  · have := (dated.patterns row (Table.mem_of_lookup _ hrow).1).1
    omega

/-- Only these tables matter. -/
lemma Mirrored.congr (mirrored : Mirrored checkpoint store projectId rows)
    (hpatterns : after.patterns = store.patterns)
    (htombstones : after.tombstones = store.tombstones) :
    Mirrored checkpoint after projectId rows := by
  intro id
  have hget : after.getPattern? id = store.getPattern? id := by
    rw [getPattern?, hpatterns, getPattern?]
  exact ⟨by rw [htombstones, hget]; exact (mirrored id).settled,
    by rw [hget]; exact (mirrored id).current⟩

/-- A write at a later version keeps what is mirrored. -/
lemma Written.mirrored {version : Nat} {now : Int} {change : Option PatternChange}
    (h : Written version now store after change) (hversion : version < Word.half)
    (later : checkpoint < version) (mirrored : Mirrored checkpoint store projectId rows) :
    Mirrored checkpoint after projectId rows := by
  have hstored := storedWord_of_lt hversion
  intro id
  cases h with
  | kept => exact mirrored id
  | buried p numbers hread =>
    by_cases hid : id = p.id
    · subst hid
      refine ⟨fun hseen => ?_, fun row hrow _ => ?_⟩
      · have := hseen (tombstoneOf p version now)
          (List.mem_append.mpr (.inr (List.mem_singleton.mpr rfl))) rfl
        simp only [tombstoneOf, hstored] at this
        omega
      · rw [getPattern?_buried, if_pos rfl] at hrow
        cases hrow
    · have hget := @getPattern?_buried store p.id
        (addTombstone store.tombstones (tombstoneOf p version now)) numbers id
      rw [if_neg hid] at hget
      refine ⟨fun hseen => ?_, fun row hrow => (mirrored id).current row (hget ▸ hrow)⟩
      have hsettled := (mirrored id).settled fun t ht htid => by
        apply hseen t _ htid
        refine List.mem_append.mpr (.inl (List.mem_filter.mpr ⟨ht, ?_⟩))
        simp [tombstoneOf, htid, hid]
      rcases hsettled with hnone | ⟨o, row, content, ho, hrow, hrest⟩
      · exact .inl hnone
      · exact .inr ⟨o, row, content, ho, hget.trans hrow, hrest⟩
  | put existing p numbers hread upserted =>
    have hget : getPattern? { store with patterns := putRows store.patterns p, numbers } id = _ :=
      getPattern?_putRows p numbers id
    refine ⟨fun hseen => ?_, fun row hrow hold => ?_⟩
    · rcases (mirrored id).settled hseen with hnone | ⟨o, row, content, ho, hrow, hrest⟩
      · exact .inl hnone
      · by_cases hid : id = p.id
        · rw [if_pos hid, hrow, Option.map_some, Option.getD_some] at hget
          refine .inr ⟨o, _, content, ho, hget, ?_⟩
          rw [mergePattern_content]
          exact hrest
        · rw [if_neg hid] at hget
          exact .inr ⟨o, row, content, ho, hget.trans hrow, hrest⟩
    · by_cases hid : id = p.id
      · rw [if_pos hid, hrow, Option.some.injEq] at hget
        have hnew : row.version = version := by
          rw [hget]
          cases store.getPattern? id with
          | none =>
            rw [Option.map_none, Option.getD_none, Pattern.freshRow_version, upserted.version,
              hstored]
          | some old =>
            rw [Option.map_some, Option.getD_some, mergePattern_version,
              Pattern.freshRow_version, upserted.version, hstored]
        omega
      · rw [if_neg hid] at hget
        exact (mirrored id).current row (hget.symm.trans hrow) hold

lemma Writes.mirrored {version : Nat} {now : Int} {changes : List PatternChange}
    (h : Writes version now store after changes) (hversion : version < Word.half)
    (later : checkpoint < version) (mirrored : Mirrored checkpoint store projectId rows) :
    Mirrored checkpoint after projectId rows := by
  induction h with
  | nil => exact mirrored
  | cons first _ ih => exact ih (first.mirrored hversion later mirrored)

end PatternStore

/-! ## Calls of the learner -/

/-- A store whose patterns and tombstones are no newer than its version. -/
structure PatternStore.Versioned (store : PatternStore) : Prop where
  counted : 0 ≤ store.version
  dated : store.Dated store.version

namespace LearnerCall

open PatternStore

variable {call : LearnerCall} {store : PatternStore}

/-- What a call writes carries the next version, and moves the store on to it. -/
theorem perform_versioned (projectId : String) (versioned : store.Versioned)
    (room : store.version + 1 < Word.half) :
    (call.perform projectId store).store.Versioned ∧
      store.version ≤ (call.perform projectId store).store.version ∧
      (call.perform projectId store).store.version ≤ store.version + 1 ∧
      ∀ checkpoint ≤ store.version, ∀ project rows, Mirrored checkpoint store project rows →
        Mirrored checkpoint (call.perform projectId store).store project rows := by
  have counted := versioned.counted
  rw [call.perform_store]
  cases hmerged : call.merged? store with
  | none =>
    refine ⟨⟨counted, versioned.dated.congr rfl rfl⟩, Int.le_refl _, ?_,
      fun _ _ _ _ mirrored => mirrored.congr rfl rfl⟩
    show store.version ≤ store.version + 1
    omega
  | some merged =>
    simp only
    obtain ⟨start, final, changes, delta, written⟩ := merged?_written hmerged
    have hpreceding : (delta.precedingVersion : Int) = store.version := by
      rw [written.preceding, natCast_readWord counted]
    have hnext : delta.precedingVersion + 1 < Word.half := by omega
    have dated : start.Dated store.version :=
      versioned.dated.congr written.patterns written.tombstones
    obtain ⟨-, -, ⟨-, hnil, hstore, -⟩ | ⟨-, -, numbers, hstore⟩⟩ :=
      commit_ok written.commit (written.writes.honest written.honest)
    · rw [hstore, written.writes.idle hnil, written.version]
      exact ⟨⟨written.version ▸ counted, written.version ▸ dated⟩, Int.le_refl _, by omega,
        fun _ _ _ _ mirrored => mirrored.congr written.patterns written.tombstones⟩
    · have hversion : merged.store.version = store.version + 1 := by
        rw [hstore, written.preceding, storedWord_readWord_succ counted room]
      have later := written.writes.dated (by omega) hnext (dated.mono (by omega))
      have hpatterns : merged.store.patterns = final.patterns := by rw [hstore]
      have htombstones : merged.store.tombstones = final.tombstones := by rw [hstore]
      rw [hversion]
      refine ⟨⟨by omega, ?_⟩, by omega, Int.le_refl _, ?_⟩
      · rw [hversion, ← hpreceding]
        exact later.congr hpatterns htombstones
      · intro checkpoint hcheckpoint project rows mirrored
        have moved := written.writes.mirrored hnext (by omega)
          (mirrored.congr written.patterns written.tombstones)
        exact moved.congr hpatterns htombstones

end LearnerCall

end HouseStyle
