import HouseStyle.Learning.Replay
import HouseStyle.Proofs.Portfolio.Mirror
import HouseStyle.Proofs.Portfolio.Writes
import HouseStyle.Proofs.Store.Evidence
import Mathlib.Data.List.Perm.Basic

/-!
# A sync moves the mirror on

The changes of a store since a checkpoint are grouped by versions. Applying the groups in order
makes a project mirror its store up to one version after the other, so that a sync may break
off after any of them, and at the end of the last one there is nothing left that is newer.
-/

namespace HouseStyle

/-! ## Occurrences of a pattern after a change -/

namespace StoreChange

open Portfolio

variable {projectId : String} {now : Int} {rows : List OccurrenceRow}

/-- A change leaves other projects alone. -/
lemma apply_others (change : StoreChange) :
    (change.apply projectId now rows).filter (·.projectId != projectId) =
      rows.filter (·.projectId != projectId) := by
  cases change with
  | retract id =>
    rw [apply, List.filter_filter]
    apply List.filter_congr
    intro row _
    by_cases hrow : row.projectId = projectId
    · simp [hrow]
    · simp [hrow]
  | upsert p =>
    rw [apply, putOccurrence, Table.filter_put, if_neg]
    · simp [Pattern.occurrence]
    · intro old hold
      rw [(sameOccurrence_iff.mp hold).2.1]

lemma occurrencesOf_retract (id x : String) :
    occurrencesOf ((retract id).apply projectId now rows) projectId x =
      if x = id then [] else occurrencesOf rows projectId x := by
  rw [apply, occurrencesOf, List.filter_filter]
  split
  · next h =>
    subst h
    rw [List.filter_eq_nil_iff]
    intro row _
    simp
  · next h =>
    apply List.filter_congr
    intro row _
    by_cases hrow : row.patternId = x
    · simp [hrow, h]
    · simp [hrow]

lemma occurrencesOf_upsert (p : Pattern) (x : String) :
    occurrencesOf ((upsert p).apply projectId now rows) projectId x =
      if x = p.id then putOccurrence (occurrencesOf rows projectId x) (p.occurrence projectId now)
      else occurrencesOf rows projectId x := by
  rw [apply, occurrencesOf, putOccurrence, Table.filter_put]
  · by_cases hx : x = p.id
    · subst hx
      rw [if_pos rfl, if_pos (by simp [Pattern.occurrence])]
      rfl
    · rw [if_neg hx, if_neg (by simp [Pattern.occurrence, Ne.symm hx])]
      rfl
  · intro old hold
    obtain ⟨-, hproject, hpattern⟩ := sameOccurrence_iff.mp hold
    rw [← hproject, ← hpattern]

/-- Retractions one after another. -/
lemma occurrencesOf_retracts (ids : List String) (x : String) :
    occurrencesOf ((ids.map retract).foldl (apply projectId now) rows) projectId x =
      if x ∈ ids then [] else occurrencesOf rows projectId x := by
  induction ids generalizing rows with
  | nil => rfl
  | cons id ids ih =>
    rw [List.map_cons, List.foldl_cons, ih, occurrencesOf_retract]
    by_cases hx : x = id
    · simp [hx]
    · simp [hx]

/-- Upserts of different patterns one after another. -/
lemma occurrencesOf_upserts {ps : List Pattern} (nodup : (ps.map (·.id)).Nodup) (x : String) :
    occurrencesOf ((ps.map upsert).foldl (apply projectId now) rows) projectId x =
      match Table.lookup Pattern.id ps x with
      | some p => putOccurrence (occurrencesOf rows projectId x) (p.occurrence projectId now)
      | none => occurrencesOf rows projectId x := by
  induction ps generalizing rows with
  | nil => rfl
  | cons p ps ih =>
    rw [List.map_cons, List.nodup_cons] at nodup
    rw [List.map_cons, List.foldl_cons, ih nodup.2, occurrencesOf_upsert]
    by_cases hx : x = p.id
    · subst hx
      have hnone : Table.lookup Pattern.id ps p.id = none :=
        (Table.lookup_eq_none _).mpr fun q hq heq => nodup.1 (heq ▸ List.mem_map_of_mem hq)
      rw [hnone]
      simp [Table.lookup]
    · have hhead : Table.lookup Pattern.id (p :: ps) x = Table.lookup Pattern.id ps x := by
        rw [Table.lookup, List.find?_cons_of_neg (by simpa using Ne.symm hx), Table.lookup]
      rw [hhead]
      simp [hx]

end StoreChange

/-! ## The versions since a checkpoint -/

lemma mem_insertNat {n m : Nat} {ns : List Nat} : m ∈ insertNat n ns ↔ m = n ∨ m ∈ ns := by
  induction ns with
  | nil => simp [insertNat]
  | cons k ns ih =>
    unfold insertNat
    split
    · simp
    · split
      · next h => simp [h]
      · simp only [List.mem_cons, ih]
        tauto

lemma pairwise_insertNat (n : Nat) {ns : List Nat} (h : ns.Pairwise (· < ·)) :
    (insertNat n ns).Pairwise (· < ·) := by
  induction ns with
  | nil => simp [insertNat]
  | cons k ns ih =>
    obtain ⟨hfirst, hrest⟩ := List.pairwise_cons.mp h
    unfold insertNat
    split
    · next hlt =>
      refine List.pairwise_cons.mpr ⟨fun m hm => ?_, h⟩
      rcases List.mem_cons.mp hm with rfl | hm
      · exact hlt
      · exact Nat.lt_trans hlt (hfirst m hm)
    · split
      · exact h
      · next hge hne =>
        refine List.pairwise_cons.mpr ⟨fun m hm => ?_, ih hrest⟩
        rcases mem_insertNat.mp hm with rfl | hm
        · omega
        · exact hfirst m hm

/-- Numbers sorted, each once. -/
def sortedNats (ns : List Nat) : List Nat := ns.foldl (fun sorted n => insertNat n sorted) []

lemma mem_sortedNats {m : Nat} {ns : List Nat} : m ∈ sortedNats ns ↔ m ∈ ns := by
  have h : ∀ sorted, m ∈ ns.foldl (fun sorted n => insertNat n sorted) sorted ↔
      m ∈ sorted ∨ m ∈ ns := by
    induction ns with
    | nil => simp
    | cons n ns ih =>
      intro sorted
      rw [List.foldl_cons, ih, mem_insertNat, List.mem_cons]
      tauto
  simpa [sortedNats] using h []

lemma pairwise_sortedNats (ns : List Nat) : (sortedNats ns).Pairwise (· < ·) := by
  have h : ∀ sorted : List Nat, sorted.Pairwise (· < ·) →
      (ns.foldl (fun sorted n => insertNat n sorted) sorted).Pairwise (· < ·) := by
    induction ns with
    | nil => exact fun _ h => h
    | cons n ns ih => exact fun sorted hsorted => ih _ (pairwise_insertNat n hsorted)
  exact h [] .nil

/-- The changes that led to a version, among tombstones and patterns. -/
def VersionChanges.at (tombstones : List TombstoneRow) (patterns : List Pattern)
    (version : Nat) : VersionChanges where
  version
  changes :=
    ((tombstones.filter (readWord ·.version == version)).map fun row =>
      StoreChange.retract row.patternId) ++
      (patterns.filter (·.version == version)).map .upsert

namespace PatternStore

variable {store : PatternStore} {checkpoint : Int}

/-- What a sync reads of a store: tombstones, patterns and the versions of both. -/
structure Snapshot (store : PatternStore) (checkpoint : Int) (patterns : List Pattern)
    (versions : List Nat) : Prop where
  rows : List.Forall₂ (fun row p => Pattern.ofRow row = .ok p)
    (store.patternsSince checkpoint) patterns
  sorted : versions.Pairwise (· < ·)
  mem : ∀ v, v ∈ versions ↔
    (∃ t ∈ store.tombstones, checkpoint < t.version ∧ readWord t.version = v) ∨
      ∃ p ∈ patterns, p.version = v

lemma changesSince_ok {groups : List VersionChanges}
    (h : store.changesSince checkpoint = .ok groups) :
    ∃ patterns versions, store.Snapshot checkpoint patterns versions ∧
      groups = versions.map (VersionChanges.at (store.tombstonesSince checkpoint) patterns) := by
  obtain ⟨patterns, hpatterns, h⟩ := bind_eq_ok.mp h
  refine ⟨patterns, _, ⟨mapM_eq_ok.mp hpatterns, ?_, fun v => ?_⟩, (pure_eq_ok.mp h).symm⟩
  · exact pairwise_sortedNats _
  · refine Iff.trans mem_sortedNats ?_
    simp [tombstonesSince, and_assoc]

/-- A sync reads patterns with the categories of their contents. -/
lemma changesSince_proper {groups : List VersionChanges}
    (h : store.changesSince checkpoint = .ok groups) :
    ∀ group ∈ groups, ∀ change ∈ group.changes, change.Proper := by
  obtain ⟨patterns, versions, snapshot, rfl⟩ := changesSince_ok h
  intro group hgroup change hchange
  obtain ⟨v, -, rfl⟩ := List.mem_map.mp hgroup
  rcases List.mem_append.mp hchange with hretract | hupsert
  · obtain ⟨t, -, rfl⟩ := List.mem_map.mp hretract
    trivial
  · obtain ⟨p, hp, rfl⟩ := List.mem_map.mp hupsert
    obtain ⟨row, -, hread⟩ := exists_left snapshot.rows (List.mem_filter.mp hp).1
    rw [StoreChange.Proper, (Pattern.ofRow_eq_ok_iff.mp hread).2.2.2]

namespace Snapshot

variable {patterns : List Pattern} {versions : List Nat} {version : Int}

lemma mem_patternsSince {row : PatternRow} :
    row ∈ store.patternsSince checkpoint ↔ row ∈ store.patterns ∧ checkpoint < row.version := by
  simp [patternsSince]

lemma exists_pattern (snapshot : store.Snapshot checkpoint patterns versions) {row : PatternRow}
    (hrow : row ∈ store.patterns) (later : checkpoint < row.version) :
    ∃ p ∈ patterns, Pattern.ofRow row = .ok p :=
  exists_right snapshot.rows (mem_patternsSince.mpr ⟨hrow, later⟩)

lemma exists_row (snapshot : store.Snapshot checkpoint patterns versions) {p : Pattern}
    (hp : p ∈ patterns) :
    ∃ row ∈ store.patterns, checkpoint < row.version ∧ Pattern.ofRow row = .ok p := by
  obtain ⟨row, hrow, hread⟩ := exists_left snapshot.rows hp
  obtain ⟨hmem, later⟩ := mem_patternsSince.mp hrow
  exact ⟨row, hmem, later, hread⟩

lemma nodup_ids (snapshot : store.Snapshot checkpoint patterns versions)
    (dated : store.Dated version) : (patterns.map (·.id)).Nodup := by
  have hids : (store.patternsSince checkpoint).map (·.patternId) = patterns.map (·.id) :=
    map_eq_map snapshot.rows fun row p hread =>
      (congrArg Pattern.id (Pattern.ofRow_eq_ok_iff.mp hread).2.2.2).symm
  rw [← hids, patternsSince, List.Perm.nodup_iff ((List.mergeSort_perm _ _).map _)]
  exact Table.nodup_filter _ _ _ dated.nodup

/-- The versions of patterns are those of their rows. -/
lemma version_eq (dated : store.Dated version) {row : PatternRow} (hrow : row ∈ store.patterns)
    {p : Pattern} (hp : Pattern.ofRow row = .ok p) : (p.version : Int) = row.version := by
  rw [congrArg Pattern.version (Pattern.ofRow_eq_ok_iff.mp hp).2.2.2]
  exact Int.toNat_of_nonneg (Int.le_of_lt (dated.patterns row hrow).1)

/-- A pattern of some version has its row in the store. -/
lemma row_of_lookup (snapshot : store.Snapshot checkpoint patterns versions)
    (dated : store.Dated version) {v : Nat} {x : String} {p : Pattern}
    (h : Table.lookup Pattern.id (patterns.filter (·.version == v)) x = some p) :
    ∃ row, store.getPattern? x = some row ∧ Pattern.ofRow row = .ok p ∧ row.version = v := by
  obtain ⟨hmem, hid⟩ := Table.mem_of_lookup _ h
  obtain ⟨hp, hv⟩ := List.mem_filter.mp hmem
  obtain ⟨row, hrow, -, hread⟩ := snapshot.exists_row hp
  have hrowId : p.id = row.patternId :=
    congrArg Pattern.id (Pattern.ofRow_eq_ok_iff.mp hread).2.2.2
  refine ⟨row, ?_, hread, ?_⟩
  · rw [← hid, hrowId]
    exact Table.lookup_of_mem _ dated.nodup hrow
  · rw [← version_eq dated hrow hread, beq_iff_eq.mp hv]

/-- A row of some version is among the patterns of that version. -/
lemma lookup_of_row (snapshot : store.Snapshot checkpoint patterns versions)
    (dated : store.Dated version) {v : Nat} {x : String} {row : PatternRow}
    (hrow : store.getPattern? x = some row) (later : checkpoint < row.version)
    (hv : row.version = v) :
    Table.lookup Pattern.id (patterns.filter (·.version == v)) x ≠ none := by
  obtain ⟨hmem, hid⟩ := Table.mem_of_lookup _ hrow
  obtain ⟨p, hp, hread⟩ := snapshot.exists_pattern hmem later
  have hversion := version_eq dated hmem hread
  intro hnone
  refine (Table.lookup_eq_none _).mp hnone p (List.mem_filter.mpr ⟨hp, ?_⟩) ?_
  · rw [beq_iff_eq]
    omega
  · rw [← hid]
    exact congrArg Pattern.id (Pattern.ofRow_eq_ok_iff.mp hread).2.2.2

end Snapshot

/-! ## One version -/

variable {patterns : List Pattern} {versions : List Nat} {version reached : Int}
  {projectId : String} {rows : List OccurrenceRow} {now : Int}

/-- Writing a pattern's occurrence over the one it has, or when it has none. -/
lemma putOccurrence_settled {p : Pattern} {row : PatternRow} {found : List OccurrenceRow}
    (hread : Pattern.ofRow row = .ok p)
    (hfound : ∀ o ∈ found, o.projectId = projectId ∧ o.patternId = p.id)
    (settled : found = [] ∨ ∃ o content, found = [o] ∧
      Pattern.readContent row.content = .ok content ∧ o.signature = content.signature) :
    Portfolio.putOccurrence found (p.occurrence projectId now) =
      [{ p.occurrence projectId now with confidence := Decimal.unsignedZero p.confidence }] := by
  rcases settled with rfl | ⟨o, content, rfl, hcontent, hsignature⟩
  · rfl
  · obtain ⟨hproject, hpattern⟩ := hfound o (by simp)
    have hsame : content = p.content :=
      Except.ok.inj (hcontent.symm.trans (Pattern.ofRow_eq_ok_iff.mp hread).1)
    have hkey : Portfolio.sameOccurrence { p.occurrence projectId now with
        confidence := Decimal.unsignedZero (p.occurrence projectId now).confidence } o = true := by
      rw [Portfolio.sameOccurrence_iff]
      exact ⟨by rw [hsignature, hsame]; rfl, hproject.symm, hpattern.symm⟩
    rw [Portfolio.putOccurrence, Table.put, List.any_cons, hkey, Bool.true_or, if_pos rfl,
      List.map_singleton, if_pos hkey]
    rfl

section NextVersion

variable {v : Nat} {x : String}

/-- The patterns that were retracted at a version. -/
def retractedAt (store : PatternStore) (checkpoint : Int) (v : Nat) : List String :=
  ((store.tombstonesSince checkpoint).filter (readWord ·.version == v)).map (·.patternId)

lemma mem_retractedAt : x ∈ store.retractedAt checkpoint v ↔
    ∃ t ∈ store.tombstones, checkpoint < t.version ∧ readWord t.version = v ∧ t.patternId = x := by
  simp [retractedAt, tombstonesSince, and_assoc]

/-- What the retractions of a version leave of the occurrences of a pattern. -/
def retained (store : PatternStore) (checkpoint : Int) (v : Nat) (projectId : String)
    (rows : List OccurrenceRow) (x : String) : List OccurrenceRow :=
  if x ∈ store.retractedAt checkpoint v then [] else occurrencesOf rows projectId x

/-- The occurrences after the changes of a version. -/
def appliedAt (store : PatternStore) (checkpoint : Int) (patterns : List Pattern) (v : Nat)
    (projectId : String) (now : Int) (rows : List OccurrenceRow) : List OccurrenceRow :=
  (VersionChanges.at (store.tombstonesSince checkpoint) patterns v).changes.foldl
    (StoreChange.apply projectId now) rows

/-- First patterns are retracted and then others are written. -/
lemma Snapshot.occurrencesOf_appliedAt (snapshot : store.Snapshot checkpoint patterns versions)
    (dated : store.Dated version) :
    occurrencesOf (store.appliedAt checkpoint patterns v projectId now rows) projectId x =
      match Table.lookup Pattern.id (patterns.filter (·.version == v)) x with
      | some p => Portfolio.putOccurrence (store.retained checkpoint v projectId rows x)
          (p.occurrence projectId now)
      | none => store.retained checkpoint v projectId rows x := by
  have hmap : ((store.tombstonesSince checkpoint).filter (readWord ·.version == v)).map
      (fun row => StoreChange.retract row.patternId) =
        (store.retractedAt checkpoint v).map StoreChange.retract := by
    simp [retractedAt]
  rw [appliedAt, VersionChanges.at, List.foldl_append, StoreChange.occurrencesOf_upserts, hmap,
    StoreChange.occurrencesOf_retracts]
  · rfl
  · exact Table.nodup_filter _ _ _ (snapshot.nodup_ids dated)

/-- Once all tombstones of a pattern are seen, what is retained of it has its signature. -/
lemma Mirrored.retained_settled (mirrored : Mirrored reached store projectId rows)
    (hreached : checkpoint ≤ reached)
    (noTombstone : ∀ t ∈ store.tombstones, reached < t.version → v ≤ t.version)
    (hseen : ∀ t ∈ store.tombstones, t.patternId = x → t.version ≤ v) :
    store.retained checkpoint v projectId rows x = [] ∨ ∃ o row content,
      store.retained checkpoint v projectId rows x = [o] ∧ store.getPattern? x = some row ∧
        Pattern.readContent row.content = .ok content ∧ o.signature = content.signature := by
  by_cases hx : x ∈ store.retractedAt checkpoint v
  · exact .inl (if_pos hx)
  · rw [retained, if_neg hx]
    apply (mirrored x).settled
    intro t ht htid
    by_contra hnew
    have hle := noTombstone t ht (by omega)
    have hge := hseen t ht htid
    refine hx (mem_retractedAt.mpr ⟨t, ht, by omega, ?_, htid⟩)
    rw [readWord]
    omega

/-- A pattern of the version is left with one occurrence, its own. -/
lemma Mirrored.appliedAt_pattern {p : Pattern} {row : PatternRow}
    (mirrored : Mirrored reached store projectId rows) (dated : store.Dated version)
    (snapshot : store.Snapshot checkpoint patterns versions) (hreached : checkpoint ≤ reached)
    (noTombstone : ∀ t ∈ store.tombstones, reached < t.version → v ≤ t.version)
    (hlookup : Table.lookup Pattern.id (patterns.filter (·.version == v)) x = some p)
    (hrow : store.getPattern? x = some row) (hread : Pattern.ofRow row = .ok p)
    (hseen : ∀ t ∈ store.tombstones, t.patternId = x → t.version ≤ v) :
    occurrencesOf (store.appliedAt checkpoint patterns v projectId now rows) projectId x =
      [{ p.occurrence projectId now with confidence := Decimal.unsignedZero p.confidence }] := by
  have hid : p.id = x := (Table.mem_of_lookup _ hlookup).2
  rw [snapshot.occurrencesOf_appliedAt dated, hlookup]
  apply putOccurrence_settled hread
  · intro o ho
    have hmem : o ∈ occurrencesOf rows projectId x := by
      unfold retained at ho
      split at ho
      · cases ho
      · exact ho
    rw [hid]
    simpa using (List.mem_filter.mp hmem).2
  · rcases mirrored.retained_settled hreached noTombstone hseen with
      hnone | ⟨o, row', content, ho, hrow', hcontent⟩
    · exact .inl hnone
    · obtain rfl : row = row' := Option.some.inj (hrow.symm.trans hrow')
      exact .inr ⟨o, content, ho, hcontent⟩

/-- Applying the changes of the next version moves the mirror on to it. -/
theorem Mirrored.next (mirrored : Mirrored reached store projectId rows)
    (dated : store.Dated version) (snapshot : store.Snapshot checkpoint patterns versions)
    (hreached : checkpoint ≤ reached) (hv : reached < v)
    (noTombstone : ∀ t ∈ store.tombstones, reached < t.version → v ≤ t.version)
    (noPattern : ∀ row ∈ store.patterns, reached < row.version → v ≤ row.version) :
    Mirrored v store projectId
      (store.appliedAt checkpoint patterns v projectId now rows) := by
  intro x
  constructor
  · intro hseen
    cases hlookup : Table.lookup Pattern.id (patterns.filter (·.version == v)) x with
    | none =>
      rw [snapshot.occurrencesOf_appliedAt dated, hlookup]
      exact mirrored.retained_settled hreached noTombstone hseen
    | some p =>
      obtain ⟨row, hrow, hread, -⟩ := snapshot.row_of_lookup dated hlookup
      exact .inr ⟨_, row, p.content, mirrored.appliedAt_pattern dated snapshot hreached noTombstone
        hlookup hrow hread hseen, hrow, (Pattern.ofRow_eq_ok_iff.mp hread).1, rfl⟩
  · intro row hrow hold
    obtain ⟨hmem, hid⟩ := Table.mem_of_lookup _ hrow
    have hburied : ∀ t ∈ store.tombstones, t.patternId = x → t.version ≤ row.version :=
      fun t ht htid => dated.buried t ht row hmem (hid.trans htid.symm)
    cases hlookup : Table.lookup Pattern.id (patterns.filter (·.version == v)) x with
    | some p =>
      obtain ⟨row', hrow', hread, -⟩ := snapshot.row_of_lookup dated hlookup
      obtain rfl : row = row' := Option.some.inj (hrow.symm.trans hrow')
      refine ⟨p, hread, ?_⟩
      rw [mirrored.appliedAt_pattern dated snapshot hreached noTombstone hlookup hrow hread
        fun t ht htid => Int.le_trans (hburied t ht htid) hold]
      have hconfidence : p.confidence = row.confidence :=
        congrArg Pattern.confidence (Pattern.ofRow_eq_ok_iff.mp hread).2.2.2
      rw [hconfidence, (dated.patterns row hmem).2.2, ← hconfidence]
      rfl
    | none =>
      -- not written at this version, so written before it and not retracted since
      have hne : row.version ≠ v := fun heq =>
        snapshot.lookup_of_row dated hrow (by omega) heq hlookup
      have hreach : row.version ≤ reached := by
        by_contra hlater
        have := noPattern row hmem (by omega)
        omega
      obtain ⟨p, hread, hshare⟩ := (mirrored x).current row hrow hreach
      have hkept : x ∉ store.retractedAt checkpoint v := by
        intro hx
        obtain ⟨t, ht, -, hversion, htid⟩ := mem_retractedAt.mp hx
        have := hburied t ht htid
        have := (dated.tombstones t ht).1
        rw [readWord] at hversion
        omega
      refine ⟨p, hread, ?_⟩
      rw [snapshot.occurrencesOf_appliedAt dated, hlookup, retained, if_neg hkept]
      exact hshare

end NextVersion

/-! ## Version after version -/

/-- The versions that are still to be applied: all that are later than what is reached. -/
structure Ahead (store : PatternStore) (reached : Int) (versions : List Nat) : Prop where
  sorted : versions.Pairwise (· < ·)
  later : ∀ v ∈ versions, reached < v
  tombstones : ∀ t ∈ store.tombstones, reached < t.version → ∃ v ∈ versions, t.version = v
  patterns : ∀ row ∈ store.patterns, reached < row.version → ∃ v ∈ versions, row.version = v

namespace Ahead

variable {v : Nat}

/-- The first version ahead is not later than anything that is newer. -/
lemma first_le (ahead : store.Ahead reached (v :: versions)) {newer : Int}
    (h : ∃ w ∈ v :: versions, newer = w) : v ≤ newer := by
  obtain ⟨w, hw, rfl⟩ := h
  rcases List.mem_cons.mp hw with rfl | hw
  · exact Int.le_refl _
  · have := (List.pairwise_cons.mp ahead.sorted).1 w hw
    omega

lemma tail (ahead : store.Ahead reached (v :: versions)) : store.Ahead v versions := by
  have hlater := ahead.later v (by simp)
  have rest : ∀ newer : Int, (v : Int) < newer → (∃ w ∈ v :: versions, newer = w) →
      ∃ w ∈ versions, newer = w := by
    rintro newer hnewer ⟨w, hw, rfl⟩
    rcases List.mem_cons.mp hw with rfl | hw
    · omega
    · exact ⟨w, hw, rfl⟩
  obtain ⟨hfirst, hsorted⟩ := List.pairwise_cons.mp ahead.sorted
  exact {
    sorted := hsorted
    later := fun w hw => Int.ofNat_lt.mpr (hfirst w hw)
    tombstones := fun t ht hnewer => rest _ hnewer (ahead.tombstones t ht (by omega))
    patterns := fun row hrow hnewer => rest _ hnewer (ahead.patterns row hrow (by omega)) }

end Ahead

/-- All versions of a snapshot are ahead of its checkpoint. -/
lemma Snapshot.ahead (snapshot : store.Snapshot checkpoint patterns versions)
    (dated : store.Dated version) : store.Ahead checkpoint versions where
  sorted := snapshot.sorted
  later := by
    intro v hv
    rcases (snapshot.mem v).mp hv with ⟨t, ht, hnewer, rfl⟩ | ⟨p, hp, rfl⟩
    · have := (dated.tombstones t ht).1
      rw [readWord]
      omega
    · obtain ⟨row, hrow, hnewer, hread⟩ := snapshot.exists_row hp
      rw [version_eq dated hrow hread]
      exact hnewer
  tombstones := by
    intro t ht hnewer
    refine ⟨readWord t.version, (snapshot.mem _).mpr (.inl ⟨t, ht, hnewer, rfl⟩), ?_⟩
    have := (dated.tombstones t ht).1
    rw [readWord]
    omega
  patterns := by
    intro row hrow hnewer
    obtain ⟨p, hp, hread⟩ := snapshot.exists_pattern hrow hnewer
    exact ⟨p.version, (snapshot.mem _).mpr (.inr ⟨p, hp, rfl⟩),
      (version_eq dated hrow hread).symm⟩

/-- No version of a snapshot is later than the store's. -/
lemma Snapshot.le_version (snapshot : store.Snapshot checkpoint patterns versions)
    (dated : store.Dated version) {v : Nat} (hv : v ∈ versions) : (v : Int) ≤ version := by
  rcases (snapshot.mem v).mp hv with ⟨t, ht, -, rfl⟩ | ⟨p, hp, rfl⟩
  · have := dated.tombstones t ht
    rw [readWord]
    omega
  · obtain ⟨row, hrow, -, hread⟩ := snapshot.exists_row hp
    rw [version_eq dated hrow hread]
    exact (dated.patterns row hrow).2.1

/-- Where nothing is ahead, the mirror is up to date. -/
lemma Mirrored.last (mirrored : Mirrored reached store projectId rows)
    (ahead : store.Ahead reached []) : Mirrored version store projectId rows := by
  intro x
  refine ⟨fun _ => (mirrored x).settled fun t ht _ => ?_, fun row hrow _ =>
    (mirrored x).current row hrow ?_⟩
  · by_contra hnewer
    obtain ⟨v, hv, -⟩ := ahead.tombstones t ht (by omega)
    cases hv
  · by_contra hnewer
    obtain ⟨v, hv, -⟩ := ahead.patterns row (Table.mem_of_lookup _ hrow).1 (by omega)
    cases hv

/-- A mirror that is up to date has one occurrence for each pattern, and no others. -/
theorem Mirrored.exact (mirrored : Mirrored version store projectId rows)
    (dated : store.Dated version) :
    ∃ ps, store.loadPatterns = .ok ps ∧
      ((rows.filter (·.projectId == projectId)).map (·.share)).Perm
        (ps.map (·.share projectId)) := by
  have hread : ∀ row ∈ store.listPatterns, ∃ p, Pattern.ofRow row = .ok p ∧
      Pattern.ofRow row = .ok p := by
    intro row hrow
    have hmem : row ∈ store.patterns := List.mem_mergeSort.mp hrow
    obtain ⟨p, hp, -⟩ := (mirrored row.patternId).current row
      (Table.lookup_of_mem _ dated.nodup hmem) (dated.patterns row hmem).2.1
    exact ⟨p, hp, hp⟩
  obtain ⟨ps, hps, hrows⟩ := exists_mapM hread
  refine ⟨ps, hps, perm_of_filter_key Share.patternId fun x => ?_⟩
  have hids : store.listPatterns.map (·.patternId) = ps.map (·.id) :=
    map_eq_map hrows fun row p hp => (Pattern.ofRow_id hp).symm
  have hnodup : (ps.map (·.id)).Nodup := by
    rw [← hids, listPatterns, List.Perm.nodup_iff ((List.mergeSort_perm _ _).map _)]
    exact dated.nodup
  have hleft : ((rows.filter (·.projectId == projectId)).map (·.share)).filter
      (·.patternId == x) = (occurrencesOf rows projectId x).map (·.share) := by
    rw [List.filter_map, List.filter_filter, occurrencesOf]
    congr 2
    funext row
    exact Bool.and_comm _ _
  have hright : (ps.map (·.share projectId)).filter (·.patternId == x) =
      (Table.lookup Pattern.id ps x).toList.map (·.share projectId) := by
    rw [List.filter_map, ← Table.filter_key _ hnodup]
    rfl
  rw [hleft, hright]
  cases hlookup : Table.lookup Pattern.id ps x with
  | some p =>
    obtain ⟨hp, hid⟩ := Table.mem_of_lookup _ hlookup
    obtain ⟨row, hrow, hread⟩ := exists_left hrows hp
    have hmem : row ∈ store.patterns := List.mem_mergeSort.mp hrow
    have hget := Table.lookup_of_mem PatternRow.patternId dated.nodup hmem
    rw [← Pattern.ofRow_id hread, hid] at hget
    obtain ⟨q, hq, hshare⟩ := (mirrored x).current row hget (dated.patterns row hmem).2.1
    obtain rfl : p = q := Except.ok.inj (hread.symm.trans hq)
    exact hshare
  | none =>
    rcases (mirrored x).settled fun t ht _ => (dated.tombstones t ht).2 with
      hnone | ⟨o, row, content, -, hrow, -⟩
    · rw [hnone]
      rfl
    · obtain ⟨hmem, hid⟩ := Table.mem_of_lookup _ hrow
      obtain ⟨p, hp, hread⟩ := exists_right hrows (List.mem_mergeSort.mpr hmem)
      exact absurd ((Pattern.ofRow_id hread).trans hid)
        ((Table.lookup_eq_none _).mp hlookup p hp)

end PatternStore

namespace Portfolio

open PatternStore

variable {portfolio after : Portfolio} {projectId : String} {attempts : Nat} {now : Int}
  {store : PatternStore} {checkpoint version : Int}

/-! ## Syncs -/

/-- Nothing has changed but aggregations, one project's row and its occurrences. -/
structure Moved (projectId : String) (portfolio after : Portfolio) : Prop where
  faults : after.faults = portfolio.faults
  known : (after.checkpoint? projectId).isSome = (portfolio.checkpoint? projectId).isSome
  checkpoints : ∀ k ≠ projectId, after.checkpoint? k = portfolio.checkpoint? k
  others : after.occurrences.filter (·.projectId != projectId) =
    portfolio.occurrences.filter (·.projectId != projectId)

lemma Moved.refl (projectId : String) (portfolio : Portfolio) :
    portfolio.Moved projectId portfolio :=
  ⟨rfl, rfl, fun _ _ => rfl, rfl⟩

lemma Moved.trans {mid : Portfolio} (first : portfolio.Moved projectId mid)
    (second : mid.Moved projectId after) : portfolio.Moved projectId after where
  faults := second.faults.trans first.faults
  known := second.known.trans first.known
  checkpoints := fun k hk => (second.checkpoints k hk).trans (first.checkpoints k hk)
  others := second.others.trans first.others

/-- A project that mirrors its store up to its checkpoint. -/
structure SyncedTo (portfolio : Portfolio) (projectId : String) (store : PatternStore)
    (checkpoint : Int) : Prop where
  own : portfolio.checkpoint? projectId = some checkpoint
  mirrored : Mirrored checkpoint store projectId portfolio.occurrences

lemma getProject?_advanced (version : Int) (k : String) :
    (portfolio.withProject projectId (advanced version now)).getProject? k =
      (portfolio.getProject? k).map fun row =>
        if k = projectId then advanced version now row else row :=
  getProject?_withProject (by exact fun _ => rfl) k

/-- A checkpoint that is moved on. -/
lemma checkpoint?_advanced (version : Int) (k : String) :
    (portfolio.withProject projectId (advanced version now)).checkpoint? k =
      if k = projectId then (portfolio.checkpoint? k).map (max · version)
      else portfolio.checkpoint? k := by
  rw [checkpoint?, getProject?_advanced, checkpoint?, Option.map_map]
  split <;> cases portfolio.getProject? k <;> simp [*, advanced]

lemma foldl_others (changes : List StoreChange) (rows : List OccurrenceRow) :
    (changes.foldl (StoreChange.apply projectId now) rows).filter (·.projectId != projectId) =
      rows.filter (·.projectId != projectId) := by
  induction changes generalizing rows with
  | nil => rfl
  | cons change changes ih => rw [List.foldl_cons, ih, change.apply_others]

/-- Only the row of a project has changed, and its checkpoint was moved on. -/
lemma moved_of_advanced (version : Int) (hfaults : after.faults = portfolio.faults)
    (hcheckpoint : ∀ k, after.checkpoint? k =
      if k = projectId then (portfolio.checkpoint? k).map (max · version)
      else portfolio.checkpoint? k)
    (others : after.occurrences.filter (·.projectId != projectId) =
      portfolio.occurrences.filter (·.projectId != projectId)) :
    portfolio.Moved projectId after where
  faults := hfaults
  known := by rw [hcheckpoint, if_pos rfl, Option.isSome_map]
  checkpoints := fun k hk => (hcheckpoint k).trans (if_neg hk)
  others := others

lemma applyVersion_moved {group : VersionChanges} {counts : SyncCounts}
    (honest : portfolio.faults.Honest)
    (h : portfolio.applyVersion projectId attempts now group = .ok (after, counts)) :
    portfolio.Moved projectId after := by
  obtain ⟨aggregations, rfl⟩ := applyVersion_ok h honest
  exact moved_of_advanced _ rfl (checkpoint?_advanced _) (foldl_others _ _)

/-- Applying the changes of the next version. -/
lemma applyVersion_synced {reached : Int} {patterns : List Pattern} {versions rest : List Nat}
    {v : Nat} {counts : SyncCounts} (honest : portfolio.faults.Honest)
    (synced : portfolio.SyncedTo projectId store reached) (dated : store.Dated version)
    (snapshot : store.Snapshot checkpoint patterns versions) (hreached : checkpoint ≤ reached)
    (ahead : store.Ahead reached (v :: rest)) (hv : v < Word.half)
    (h : portfolio.applyVersion projectId attempts now
      (VersionChanges.at (store.tombstonesSince checkpoint) patterns v) = .ok (after, counts)) :
    portfolio.Moved projectId after ∧ after.SyncedTo projectId store v := by
  have moved := applyVersion_moved honest h
  obtain ⟨aggregations, rfl⟩ := applyVersion_ok h honest
  have hlater := ahead.later v (by simp)
  have hcheckpoint : ∀ k, (portfolio.withProject projectId
      (advanced (storedWord v) now)).checkpoint? k = if k = projectId then
        (portfolio.checkpoint? k).map (max · (v : Int)) else portfolio.checkpoint? k := by
    rw [storedWord_of_lt hv]
    exact checkpoint?_advanced v
  refine ⟨moved, ?_, ?_⟩
  · refine (hcheckpoint projectId).trans ?_
    rw [if_pos rfl, synced.own, Option.map_some, Int.max_eq_right (Int.le_of_lt hlater)]
  · exact synced.mirrored.next dated snapshot hreached hlater
      (fun t ht hnewer => ahead.first_le (ahead.tombstones t ht hnewer))
      (fun row hrow hnewer => ahead.first_le (ahead.patterns row hrow hnewer))

/-- Applying version after version. Where it breaks off, and at the end, the project mirrors its
store up to the version that was reached. -/
theorem applyVersions_synced {patterns : List Pattern} {versions : List Nat}
    (dated : store.Dated version) (snapshot : store.Snapshot checkpoint patterns versions)
    (hversion : version < Word.half) {progress left : SyncProgress} {error : Option StorageError}
    {applied rest : List Nat} (honest : progress.portfolio.faults.Honest)
    (synced : progress.portfolio.SyncedTo projectId store progress.checkpoint)
    (hreached : checkpoint ≤ progress.checkpoint) (hle : progress.checkpoint ≤ version)
    (ahead : store.Ahead progress.checkpoint (applied ++ rest))
    (within : ∀ v ∈ applied, (v : Int) ≤ version)
    (h : applyVersions projectId attempts now progress
      (applied.map (VersionChanges.at (store.tombstonesSince checkpoint) patterns)) =
        (left, error)) :
    progress.portfolio.Moved projectId left.portfolio ∧
      left.portfolio.SyncedTo projectId store left.checkpoint ∧
      left.checkpoint ≤ version ∧ (error = none → store.Ahead left.checkpoint rest) := by
  induction applied generalizing progress with
  | nil =>
    obtain ⟨rfl, rfl⟩ := Prod.mk.inj h
    exact ⟨.refl _ _, synced, hle, fun _ => ahead⟩
  | cons v applied ih =>
    have hv : (v : Int) ≤ version := within v (by simp)
    have hlater := ahead.later v (by simp)
    rw [List.map_cons, applyVersions] at h
    cases hfirst : progress.portfolio.applyVersion projectId attempts now
        (VersionChanges.at (store.tombstonesSince checkpoint) patterns v) with
    | error error =>
      rw [hfirst] at h
      obtain ⟨rfl, rfl⟩ := Prod.mk.inj h
      exact ⟨.refl _ _, synced, hle, fun hnone => nomatch hnone⟩
    | ok result =>
      obtain ⟨mid, counts⟩ := result
      rw [hfirst] at h
      obtain ⟨moved, synced'⟩ := applyVersion_synced honest synced dated snapshot hreached ahead
        (by omega) hfirst
      have hreached' : checkpoint ≤ v := by omega
      obtain ⟨moved', hrest⟩ := ih (moved.faults ▸ honest) synced' hreached' hv ahead.tail
        (fun w hw => within w (by simp [hw])) h
      exact ⟨moved.trans moved', hrest⟩

lemma closeSync_checkpoint? {reached : Nat} (honest : portfolio.faults.Honest)
    (h : portfolio.closeSync projectId reached now store = .ok after) (k : String) :
    after.checkpoint? k = if k = projectId then
      (portfolio.checkpoint? k).map (max · (storedWord reached)) else portfolio.checkpoint? k := by
  obtain rfl := closeSync_ok h honest
  rw [checkpoint?_withProject (by exact fun _ => rfl) (by exact fun _ => rfl)]
  exact checkpoint?_advanced _ k

lemma closeSync_moved {reached : Nat} (honest : portfolio.faults.Honest)
    (h : portfolio.closeSync projectId reached now store = .ok after) :
    portfolio.Moved projectId after := by
  have hcheckpoint := closeSync_checkpoint? honest h
  obtain rfl := closeSync_ok h honest
  exact moved_of_advanced _ rfl hcheckpoint rfl

/-- The end of a sync moves the checkpoint to the version of the store. -/
lemma closeSync_synced {reached : Nat} (honest : portfolio.faults.Honest)
    (synced : portfolio.SyncedTo projectId store checkpoint) (hle : checkpoint ≤ reached)
    (hreached : reached < Word.half)
    (mirrored : Mirrored reached store projectId portfolio.occurrences)
    (h : portfolio.closeSync projectId reached now store = .ok after) :
    portfolio.Moved projectId after ∧ after.SyncedTo projectId store reached := by
  have hcheckpoint := closeSync_checkpoint? honest h projectId
  have moved := closeSync_moved honest h
  obtain rfl := closeSync_ok h honest
  refine ⟨moved, hcheckpoint.trans ?_, mirrored⟩
  rw [if_pos rfl, synced.own, Option.map_some, storedWord_of_lt hreached, Int.max_eq_right hle]

lemma activeProject_ok {project : ProjectRow}
    (h : portfolio.activeProject projectId = .ok project) :
    portfolio.getProject? projectId = some project := by
  unfold activeProject at h
  split at h
  · cases h
  · next row hrow =>
    split at h
    · exact hrow.trans (congrArg some (Except.ok.inj h))
    · cases h

/-- A sync that the database cuts off after a number of versions. -/
def syncCut (portfolio : Portfolio) (attempts : Nat) (now : Int) (projectId : String)
    (store : PatternStore) (versions : Nat) : Portfolio :=
  match portfolio.activeProject projectId with
  | .error _ => portfolio
  | .ok project =>
    let checkpoint := readWord project.lastSyncedVersion
    match store.changesSince checkpoint with
    | .error _ => portfolio
    | .ok groups =>
      if readWord store.version < checkpoint then portfolio
      else (applyVersions project.id attempts now ⟨portfolio, checkpoint, .zero⟩
        (groups.take versions)).1.portfolio

/-- Versions that are applied up to a failing one. -/
lemma applyVersions_take (progress : SyncProgress) (groups : List VersionChanges) :
    ∃ count, (applyVersions projectId attempts now progress groups).1 =
      (applyVersions projectId attempts now progress (groups.take count)).1 := by
  induction groups generalizing progress with
  | nil => exact ⟨0, rfl⟩
  | cons group groups ih =>
    cases hfirst : progress.portfolio.applyVersion projectId attempts now group with
    | error error => exact ⟨0, by rw [applyVersions, hfirst]; rfl⟩
    | ok result =>
      obtain ⟨mid, counts⟩ := result
      obtain ⟨count, hcount⟩ := ih ⟨mid, group.version, progress.counts.add counts⟩
      exact ⟨count + 1, by
        rw [List.take_succ_cons, applyVersions, hfirst, applyVersions, hfirst]
        exact hcount⟩

/-- How a sync goes: it does not start, it breaks off, or it applies all versions and closes. -/
theorem sync_cases (portfolio : Portfolio) (attempts : Nat) (now : Int) (projectId : String)
    (store : PatternStore) :
    ((portfolio.sync attempts now projectId store).portfolio = portfolio ∧
      ∃ error, (portfolio.sync attempts now projectId store).result = .error error) ∨
    ∃ project groups progress failure, portfolio.activeProject projectId = .ok project ∧
      store.changesSince (readWord project.lastSyncedVersion) = .ok groups ∧
      readWord project.lastSyncedVersion ≤ readWord store.version ∧
      applyVersions project.id attempts now
        ⟨portfolio, readWord project.lastSyncedVersion, .zero⟩ groups = (progress, failure) ∧
      (((portfolio.sync attempts now projectId store).portfolio = progress.portfolio ∧
        ∃ error, (portfolio.sync attempts now projectId store).result = .error error) ∨
      failure = none ∧ ∃ left, progress.portfolio.closeSync project.id
          (max (readWord store.version) progress.checkpoint) now store = .ok left ∧
        (portfolio.sync attempts now projectId store).portfolio = left ∧
        ∃ result, (portfolio.sync attempts now projectId store).result = .ok result) := by
  unfold sync
  cases hproject : portfolio.activeProject projectId with
  | error error => exact .inl ⟨rfl, _, rfl⟩
  | ok project =>
    simp only [syncFrom]
    cases hgroups : store.changesSince (readWord project.lastSyncedVersion) with
    | error error => exact .inl ⟨rfl, _, rfl⟩
    | ok groups =>
      by_cases hbehind : readWord store.version < readWord project.lastSyncedVersion
      · simp only [hbehind, if_true]
        exact .inl ⟨trivial, _, rfl⟩
      · simp only [hbehind, if_false]
        refine .inr ⟨project, groups, _, _, rfl, hgroups, Nat.le_of_not_lt hbehind, rfl, ?_⟩
        generalize applyVersions project.id attempts now
          ⟨portfolio, readWord project.lastSyncedVersion, .zero⟩ groups = outcome
        obtain ⟨progress, failure⟩ := outcome
        cases failure with
        | some error => exact .inl ⟨rfl, _, rfl⟩
        | none =>
          simp only
          cases hclose : progress.portfolio.closeSync project.id
              (max (readWord store.version) progress.checkpoint) now store with
          | error error => exact .inl ⟨rfl, _, rfl⟩
          | ok left => exact .inr ⟨trivial, left, rfl, rfl, _, rfl⟩

/-- A sync changes nothing of other projects, whatever the store holds. -/
lemma applyVersions_moved {progress left : SyncProgress} {groups : List VersionChanges}
    {failure : Option StorageError} (honest : progress.portfolio.faults.Honest)
    (h : applyVersions projectId attempts now progress groups = (left, failure)) :
    progress.portfolio.Moved projectId left.portfolio := by
  induction groups generalizing progress with
  | nil =>
    obtain ⟨rfl, -⟩ := Prod.mk.inj h
    exact .refl _ _
  | cons group groups ih =>
    rw [applyVersions] at h
    cases hfirst : progress.portfolio.applyVersion projectId attempts now group with
    | error error =>
      rw [hfirst] at h
      obtain ⟨rfl, -⟩ := Prod.mk.inj h
      exact .refl _ _
    | ok result =>
      obtain ⟨mid, counts⟩ := result
      rw [hfirst] at h
      have moved := applyVersion_moved honest hfirst
      have hmid : mid.faults.Honest := moved.faults ▸ honest
      exact moved.trans (ih (by exact hmid) h)

theorem sync_moved (honest : portfolio.faults.Honest) (projectId : String) (attempts : Nat)
    (now : Int) (store : PatternStore) :
    portfolio.Moved projectId (portfolio.sync attempts now projectId store).portfolio := by
  rcases portfolio.sync_cases attempts now projectId store with ⟨hsame, -⟩ |
    ⟨project, groups, progress, failure, hproject, -, -, happly, hcases⟩
  · rw [hsame]
    exact .refl _ _
  · rw [(Table.mem_of_lookup ProjectRow.id (activeProject_ok hproject)).2] at happly hcases
    have moved : portfolio.Moved projectId progress.portfolio := applyVersions_moved honest happly
    rcases hcases with ⟨hleft, -⟩ | ⟨-, left, hclose, hleft, -⟩
    · rw [hleft]
      exact moved
    · rw [hleft]
      exact moved.trans (closeSync_moved (moved.faults ▸ honest) hclose)

theorem syncCut_moved (honest : portfolio.faults.Honest) (projectId : String) (attempts : Nat)
    (now : Int) (store : PatternStore) (versions : Nat) :
    portfolio.Moved projectId
      (portfolio.syncCut attempts now projectId store versions) := by
  unfold syncCut
  split
  · exact .refl _ _
  · next project hproject =>
    rw [(Table.mem_of_lookup ProjectRow.id (activeProject_ok hproject)).2]
    simp only
    split
    · exact .refl _ _
    · split
      · exact .refl _ _
      · generalize happly : applyVersions projectId attempts now _ _ = outcome
        obtain ⟨left, failure⟩ := outcome
        exact applyVersions_moved (by exact honest) happly

/-- A sync that is cut off at once has done nothing. -/
lemma syncCut_zero : portfolio.syncCut attempts now projectId store 0 = portfolio := by
  unfold syncCut
  split
  · rfl
  · simp only
    split
    · rfl
    · split
      · rfl
      · rfl

/-- A sync that fails leaves what one leaves that is cut off after some number of versions. -/
theorem sync_failed {error : SyncError}
    (h : (portfolio.sync attempts now projectId store).result = .error error) :
    ∃ versions, (portfolio.sync attempts now projectId store).portfolio =
      portfolio.syncCut attempts now projectId store versions := by
  rcases portfolio.sync_cases attempts now projectId store with ⟨hsame, -⟩ |
    ⟨project, groups, progress, failure, hproject, hgroups, hversion, happly,
      ⟨hleft, -⟩ | ⟨-, left, -, -, result, hresult⟩⟩
  · exact ⟨0, hsame.trans syncCut_zero.symm⟩
  · obtain ⟨count, hcount⟩ : ∃ count, (applyVersions project.id attempts now
        ⟨portfolio, readWord project.lastSyncedVersion, .zero⟩ groups).1 =
          (applyVersions project.id attempts now
            ⟨portfolio, readWord project.lastSyncedVersion, .zero⟩ (groups.take count)).1 :=
      applyVersions_take _ _
    refine ⟨count, ?_⟩
    rw [hleft, syncCut, hproject]
    simp only [hgroups, Nat.not_lt.mpr hversion, if_false]
    rw [← hcount, happly]
  · rw [h] at hresult
    cases hresult

/-- The project that is synced, and the checkpoint that is read of it. -/
lemma SyncedTo.project {project : ProjectRow}
    (synced : portfolio.SyncedTo projectId store checkpoint) (hcheckpoint : 0 ≤ checkpoint)
    (h : portfolio.activeProject projectId = .ok project) :
    project.id = projectId ∧ (readWord project.lastSyncedVersion : Int) = checkpoint := by
  have hrow := activeProject_ok h
  have hown := synced.own
  rw [checkpoint?, hrow, Option.map_some, Option.some.injEq] at hown
  refine ⟨(Table.mem_of_lookup ProjectRow.id hrow).2, ?_⟩
  rw [hown]
  exact Int.toNat_of_nonneg hcheckpoint

/-- Versions of a snapshot applied from the checkpoint on, all of them or the first ones. -/
lemma applied_synced {patterns : List Pattern} {versions : List Nat} {start : Nat} {count : Nat}
    {left : SyncProgress} {failure : Option StorageError}
    (honest : portfolio.faults.Honest) (versioned : store.Versioned)
    (hversion : store.version < Word.half) (hle : (start : Int) ≤ store.version)
    (snapshot : store.Snapshot start patterns versions)
    (synced : portfolio.SyncedTo projectId store start)
    (h : applyVersions projectId attempts now ⟨portfolio, start, .zero⟩
      ((versions.map (VersionChanges.at (store.tombstonesSince start) patterns)).take count) =
        (left, failure)) :
    portfolio.Moved projectId left.portfolio ∧
      left.portfolio.SyncedTo projectId store left.checkpoint ∧
      left.checkpoint ≤ store.version ∧
      (failure = none → store.Ahead left.checkpoint (versions.drop count)) := by
  have ahead := snapshot.ahead versioned.dated
  rw [← List.take_append_drop count versions] at ahead
  rw [← List.map_take] at h
  exact applyVersions_synced versioned.dated snapshot hversion honest synced (Int.le_refl _) hle
    ahead (fun v hv => snapshot.le_version versioned.dated (List.mem_of_mem_take hv)) h

/-- Whatever comes of a sync, the project mirrors its store up to its checkpoint, and up to the
version of the store if the sync goes through. -/
theorem sync_synced (honest : portfolio.faults.Honest) (versioned : store.Versioned)
    (hversion : store.version < Word.half) (hcheckpoint : 0 ≤ checkpoint)
    (hle : checkpoint ≤ store.version)
    (synced : portfolio.SyncedTo projectId store checkpoint) :
    portfolio.Moved projectId (portfolio.sync attempts now projectId store).portfolio ∧
      ∃ reached, 0 ≤ reached ∧ reached ≤ store.version ∧
        (portfolio.sync attempts now projectId store).portfolio.SyncedTo projectId store reached ∧
        ∀ result, (portfolio.sync attempts now projectId store).result = .ok result →
          reached = store.version := by
  rcases portfolio.sync_cases attempts now projectId store with ⟨hsame, error, herror⟩ |
    ⟨project, groups, progress, failure, hproject, hgroups, -, happly, hcases⟩
  · rw [hsame]
    exact ⟨.refl _ _, checkpoint, hcheckpoint, hle, synced, fun result hresult => by
      rw [herror] at hresult
      cases hresult⟩
  · obtain ⟨hid, hread⟩ := synced.project hcheckpoint hproject
    obtain ⟨patterns, versions, snapshot, rfl⟩ := changesSince_ok hgroups
    rw [← hread] at synced hle
    rw [hid] at happly hcases
    have hall : ∀ changes : Nat → VersionChanges,
        (versions.map changes).take versions.length = versions.map changes :=
      fun changes => List.take_of_length_le (by rw [List.length_map])
    rw [← hall] at happly
    obtain ⟨moved, synced', hle', hahead⟩ :=
      applied_synced honest versioned hversion hle snapshot synced happly
    rcases hcases with ⟨hleft, error, herror⟩ | ⟨hnone, left, hclose, hleft, -⟩
    · rw [hleft]
      exact ⟨moved, progress.checkpoint, Int.natCast_nonneg _, hle', synced',
        fun result hresult => by
          rw [herror] at hresult
          cases hresult⟩
    · have hend := hahead hnone
      rw [List.drop_length] at hend
      have hcounted := versioned.counted
      have hreached : (max (readWord store.version) progress.checkpoint : Nat) = store.version := by
        rw [readWord]
        omega
      have mirrored : Mirrored (max (readWord store.version) progress.checkpoint : Nat) store
          projectId progress.portfolio.occurrences := synced'.mirrored.last hend
      obtain ⟨moved', synced''⟩ := closeSync_synced (moved.faults ▸ honest) synced'
        (Int.ofNat_le.mpr (Nat.le_max_right _ _)) (by omega) mirrored hclose
      rw [hreached] at synced''
      rw [hleft]
      exact ⟨moved.trans moved', store.version, hcounted, Int.le_refl _, synced'',
        fun _ _ => rfl⟩

/-- So does a project whose sync is cut off. -/
theorem syncCut_synced {count : Nat} (honest : portfolio.faults.Honest)
    (versioned : store.Versioned) (hversion : store.version < Word.half)
    (hcheckpoint : 0 ≤ checkpoint) (hle : checkpoint ≤ store.version)
    (synced : portfolio.SyncedTo projectId store checkpoint) :
    portfolio.Moved projectId (portfolio.syncCut attempts now projectId store count) ∧
      ∃ reached, 0 ≤ reached ∧ reached ≤ store.version ∧
        (portfolio.syncCut attempts now projectId store count).SyncedTo projectId store
          reached := by
  have unchanged : portfolio.Moved projectId portfolio ∧ ∃ reached, 0 ≤ reached ∧
      reached ≤ store.version ∧ portfolio.SyncedTo projectId store reached :=
    ⟨.refl _ _, checkpoint, hcheckpoint, hle, synced⟩
  unfold syncCut
  split
  · exact unchanged
  · next project hproject =>
    simp only
    split
    · exact unchanged
    · next groups hgroups =>
      split
      · exact unchanged
      · obtain ⟨hid, hread⟩ := synced.project hcheckpoint hproject
        obtain ⟨patterns, versions, snapshot, rfl⟩ := changesSince_ok hgroups
        rw [← hread] at synced hle
        rw [hid]
        obtain ⟨moved, synced', hle', -⟩ :=
          applied_synced honest versioned hversion hle snapshot synced rfl
        exact ⟨moved, _, Int.natCast_nonneg _, hle', synced'⟩

/-- A rebase takes all occurrences of a project back, and its checkpoint to 0. -/
theorem rebase_synced {count : Nat} (honest : portfolio.faults.Honest)
    (dated : store.Dated version)
    (h : portfolio.rebase attempts now projectId = .ok (after, count)) :
    portfolio.Moved projectId after ∧ after.SyncedTo projectId store 0 := by
  obtain ⟨hknown, renewals, mid, -, -, renewed, rfl⟩ := rebase_renewed h honest
  obtain ⟨aggregations, rfl⟩ := renewed.refreshed
  have hproject : ∀ k, (portfolio.withProject projectId (restarted now)).getProject? k =
      (portfolio.getProject? k).map fun row =>
        if k = projectId then restarted now row else row :=
    getProject?_withProject (by exact fun _ => rfl)
  refine ⟨⟨rfl, ?_, fun k hk => ?_, ?_⟩, ?_, ?_⟩
  · refine (congrArg (fun row => (Option.map ProjectRow.lastSyncedVersion row).isSome)
      (hproject projectId)).trans ?_
    simp [checkpoint?]
  · refine (congrArg (Option.map ProjectRow.lastSyncedVersion) (hproject k)).trans ?_
    simp [hk, checkpoint?]
  · show (portfolio.occurrences.filter fun row => !(row.projectId == projectId)).filter
      (·.projectId != projectId) = _
    rw [List.filter_filter]
    apply List.filter_congr
    intro row _
    exact Bool.and_self _
  · refine (congrArg (Option.map ProjectRow.lastSyncedVersion) (hproject projectId)).trans ?_
    obtain ⟨row, hrow⟩ := Option.isSome_iff_exists.mp hknown
    simp [hrow, restarted]
  · exact mirrored_zero dated fun row hrow => by
      simpa using (List.mem_filter.mp hrow).2

end Portfolio

end HouseStyle
