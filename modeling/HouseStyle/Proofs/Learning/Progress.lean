import HouseStyle.Proofs.Learning.Batch
import HouseStyle.Proofs.Learning.Calls
import HouseStyle.Proofs.Pattern.Confidence
import HouseStyle.Proofs.Store.Sound

/-!
# Calls on a sound database go through

A call with a request that is accepted goes through when the database refuses nothing. Three
things could still stop it: a stored pattern that cannot be read, a confidence that is no
number, and a delta or an operation that the log has already. The first and the last are ruled
out by what every call leaves, readable patterns and a log that is behind the version.
-/

namespace HouseStyle

/-! ## Steps -/

lemma PatternStore.clearFile_succeeds {store : PatternStore} (sound : store.faults = .none)
    (path : String) : ∃ after, store.clearFile path = .ok after := by
  have honest : store.faults.Honest := sound ▸ Faults.honest_none
  unfold clearFile
  refine exists_bind (deleteFileConcepts_succeeds sound path) fun ⟨s1, _⟩ h1 => ?_
  obtain rfl := deleteFileConcepts_ok h1 honest
  exact exists_bind (deleteFileEvidence_succeeds (by exact sound) path) fun _ _ => ⟨_, rfl⟩

/-- All confidences in a step are numbers. -/
def MergeStep.Storable : MergeStep → Prop
  | .examine _ _ (.analyzed analysis) => ∀ c ∈ analysis.concepts, c.confidence.isNaN = false
  | .examine _ _ _ | .delete _ | .rename _ _ _ => True

namespace MergeState

open PatternStore

variable {state : MergeState} {now : Int}

lemma examine_succeeds (sound : state.store.faults = .none) (path : String)
    (revision : Option String) {analysis : Analysis}
    (numbers : ∀ c ∈ analysis.concepts, c.confidence.isNaN = false) :
    ∃ after, state.examine now path revision analysis = .ok after := by
  have honest : state.store.faults.Honest := sound ▸ Faults.honest_none
  unfold examine
  refine exists_bind (clearFile_succeeds sound path) fun s1 h1 => ?_
  obtain rfl := clearFile_ok h1 honest
  refine exists_bind (insertConcepts_succeeds (by exact sound) ?numbers) fun s2 h2 => ?_
  case numbers =>
    intro row hrow
    obtain ⟨c, hc, rfl⟩ := List.mem_map.mp hrow
    exact numbers c hc
  obtain ⟨_, rfl⟩ := insertConcepts_ok h2 honest
  refine exists_bind (insertEvidence_succeeds (by exact sound) _) fun s3 h3 => ?_
  obtain ⟨_, rfl⟩ := insertEvidence_ok h3 honest
  exact exists_bind (upsertFile_succeeds (by exact sound) _) fun _ _ => ⟨_, rfl⟩

lemma delete_succeeds (sound : state.store.faults = .none) (path : String) :
    ∃ after, state.delete path = .ok after := by
  have honest : state.store.faults.Honest := sound ▸ Faults.honest_none
  unfold delete
  refine exists_bind (deleteFile_succeeds sound path) fun ⟨s1, _⟩ h1 => ?_
  obtain ⟨⟨_, rfl⟩, -⟩ := deleteFile_ok h1 honest
  exact exists_bind (clearFile_succeeds (by exact sound) path) fun _ _ => ⟨_, rfl⟩

/-- The target of a move has been given up before the row of its source is moved there. -/
lemma rename_succeeds (sound : state.store.faults = .none) (source target : String)
    (revision : Option String) : ∃ after, state.rename source target revision = .ok after := by
  have honest : state.store.faults.Honest := sound ▸ Faults.honest_none
  unfold rename
  refine exists_bind (clearFile_succeeds sound target) fun s1 h1 => ?_
  obtain rfl := clearFile_ok h1 honest
  refine exists_bind (deleteFile_succeeds (by exact sound) target) fun ⟨s2, _⟩ h2 => ?_
  obtain ⟨⟨_, rfl⟩, -⟩ := deleteFile_ok h2 honest
  refine exists_bind (rekeyConcepts_succeeds (by exact sound) _ _) fun ⟨s3, _⟩ h3 => ?_
  obtain rfl := rekeyConcepts_ok h3 honest
  refine exists_bind (rekeyEvidence_succeeds (by exact sound) _ _) fun ⟨s4, _⟩ h4 => ?_
  obtain rfl := rekeyEvidence_ok h4 honest
  refine exists_bind (rekeyFile_succeeds (by exact sound) ?free) fun ⟨s5, _⟩ h5 => ?_
  case free =>
    rw [getFile?_eq_lookup, Table.lookup_filter_ne]
    simp
  obtain rfl := rekeyFile_ok h5 honest
  simp only
  split
  · exact exists_bind (upsertFile_succeeds (by exact sound) _) fun _ _ => ⟨_, rfl⟩
  · exact ⟨_, rfl⟩

lemma step_succeeds (sound : state.store.faults = .none) {step : MergeStep}
    (storable : step.Storable) : ∃ after, MergeState.step now state step = .ok after := by
  cases step with
  | examine path revision reading =>
    cases reading with
    | analyzed analysis => exact examine_succeeds sound path revision storable
    | unchanged => exact ⟨_, rfl⟩
    | failed => exact ⟨_, rfl⟩
  | delete path => exact delete_succeeds sound path
  | rename source target revision => exact rename_succeeds sound source target revision

lemma Effect.faults {after : MergeState} (effect : Effect state after) :
    after.store.faults = state.store.faults := by
  obtain ⟨_, _, _, _, hstore⟩ := effect.frame
  rw [hstore]

theorem steps_succeed {steps : List MergeStep} (sound : state.store.faults = .none)
    (storable : ∀ step ∈ steps, step.Storable) :
    ∃ after, steps.foldlM (MergeState.step now) state = .ok after := by
  induction steps generalizing state with
  | nil => exact ⟨_, rfl⟩
  | cons step steps ih =>
    rw [List.foldlM_cons]
    refine exists_bind (step_succeeds sound (storable step (by simp))) fun mid hmid => ?_
    have effect := step_effect (sound ▸ Faults.honest_none) hmid
    exact ih (effect.faults.trans sound) fun later hlater => storable later (by simp [hlater])

end MergeState

/-! ## Patterns -/

namespace PatternStore

variable {store after : PatternStore}

/-- Every row is read as a pattern. -/
def Readable (store : PatternStore) : Prop :=
  ∀ row ∈ store.patterns, ∃ p, Pattern.ofRow row = .ok p

lemma readable_empty : Readable .empty := by simp [Readable, empty]

lemma Readable.read (readable : store.Readable) (id : String) :
    ∃ existing, store.readPattern? id = .ok existing := by
  cases hrow : store.getPattern? id with
  | none => exact ⟨none, readPattern?_of_none hrow⟩
  | some row =>
    obtain ⟨p, hp⟩ := readable row (Table.mem_of_lookup _ hrow).1
    exact ⟨some p, by rw [readPattern?_of_row hrow, hp]; rfl⟩

lemma Written.readable {version : Nat} {now : Int} {change : Option PatternChange}
    (h : Written version now store after change) (readable : store.Readable) : after.Readable := by
  cases h with
  | kept => exact readable
  | buried => exact fun row hrow => readable row (List.mem_filter.mp hrow).1
  | put existing p numbers hread upserted =>
    have hfresh := Pattern.ofRow_freshRow upserted.examples
    intro row hrow
    rcases mem_putRows hrow with hold | rfl | ⟨old, hold, rfl⟩
    · exact readable row hold
    · exact ⟨_, hfresh⟩
    · obtain ⟨q, hq⟩ := readable old hold
      exact ⟨_, Pattern.ofRow_mergePattern hq hfresh⟩

lemma Writes.readable {version : Nat} {now : Int} {changes : List PatternChange}
    (h : Writes version now store after changes) (readable : store.Readable) :
    after.Readable := by
  induction h with
  | nil => exact readable
  | cons first _ ih => exact ih (first.readable readable)

lemma Written.faults {version : Nat} {now : Int} {change : Option PatternChange}
    (h : Written version now store after change) : after.faults = store.faults := by
  obtain ⟨_, _, _, rfl⟩ := h.frame
  rfl

lemma Writes.faults {version : Nat} {now : Int} {changes : List PatternChange}
    (h : Writes version now store after changes) : after.faults = store.faults := by
  obtain ⟨_, _, _, rfl⟩ := h.frame
  rfl

lemma buryPattern_succeeds (sound : store.faults = .none) (p : Pattern) (version : Nat)
    (now : Int) : ∃ after, store.buryPattern p version now = .ok after := by
  unfold buryPattern
  refine exists_bind (deletePattern_succeeds sound p.id) fun ⟨s1, _⟩ h1 => ?_
  obtain ⟨_, rfl⟩ := deletePattern_ok h1 (sound ▸ Faults.honest_none)
  exact insertTombstone_succeeds (by exact sound) _

lemma putPattern_succeeds (sound : store.faults = .none) (existing : Option Pattern)
    {p : Pattern} (number : p.confidence.isNaN = false) :
    ∃ after, store.putPattern existing p = .ok after := by
  have hwrite : ∃ after, store.upsertPattern p.toRow = .ok after :=
    upsertPattern_succeeds sound number
  unfold putPattern
  cases existing with
  | none => exact exists_bind hwrite fun _ _ => ⟨_, rfl⟩
  | some previous =>
    simp only
    split
    · exact ⟨_, rfl⟩
    · exact exists_bind hwrite fun _ _ => ⟨_, rfl⟩

lemma recomputePattern_succeeds {policy : LearningPolicy} (sound : store.faults = .none)
    (readable : store.Readable) (finite : policy.confidence.bonus.isFinite = true) (version : Nat)
    (now : Int) (content : Option PatternContent) (gained : Bool) (id : String) :
    ∃ after, store.recomputePattern policy version now content gained id = .ok after := by
  unfold recomputePattern
  refine exists_bind (readable.read id) fun existing _ => ?_
  simp only
  split
  · split
    · exact exists_bind (buryPattern_succeeds sound _ _ _) fun _ _ => ⟨_, rfl⟩
    · exact ⟨_, rfl⟩
  · split
    · exact ⟨_, rfl⟩
    · apply putPattern_succeeds sound
      have hscore := ConfidencePolicy.isNaN_score finite
      cases existing with
      | none => exact hscore _ _ _
      | some previous =>
        simp only
        split
        · exact ConfidencePolicy.isNaN_corroborate (hscore _ _ _)
        · exact hscore _ _ _

lemma importSeed_succeeds (policy : LearningPolicy) (sound : store.faults = .none)
    (readable : store.Readable) (version : Nat) (now : Int) {seed : PatternSeed}
    (number : seed.confidence.isNaN = false) :
    ∃ after, store.importSeed policy version now seed = .ok after := by
  unfold importSeed
  refine exists_bind (readable.read seed.content.id) fun existing _ => ?_
  simp only
  split
  · exact ⟨_, rfl⟩
  · apply putPattern_succeeds sound
    cases existing with
    | none => exact number
    | some previous => exact ConfidencePolicy.isNaN_corroborate number

/-- A fold over items goes through, when each of them does on a sound and readable store. -/
lemma collecting_succeeds {α : Type} {version : Nat} {now : Int}
    {write : PatternStore → α → Except StorageError (PatternStore × Option PatternChange)}
    {items : List α}
    (hwrite : ∀ item ∈ items, ∀ s : PatternStore, s.faults = .none → s.Readable →
      ∃ t change, write s item = .ok (t, change) ∧ Written version now s t change)
    (sound : store.faults = .none) (readable : store.Readable) (before : List PatternChange) :
    ∃ after, items.foldlM (collecting write) (store, before) = .ok after := by
  induction items generalizing store before with
  | nil => exact ⟨_, rfl⟩
  | cons item items ih =>
    obtain ⟨mid, change, hfirst, first⟩ := hwrite item (by simp) store sound readable
    rw [List.foldlM_cons]
    refine exists_bind ⟨(mid, before ++ change.toList), ?_⟩ fun progress hprogress => ?_
    · simp only [collecting, hfirst, bind, Except.bind, pure, Except.pure]
    · simp only [collecting, hfirst, bind, Except.bind, pure, Except.pure] at hprogress
      obtain rfl := Except.ok.inj hprogress
      exact ih (fun later hlater => hwrite later (by simp [hlater])) (first.faults.trans sound)
        (first.readable readable) _

/-! ## The log -/

/-- Two versions give two ids. -/
lemma idFor_injective {m n : Nat} (h : LearningDelta.idFor m = LearningDelta.idFor n) : m = n := by
  have hdigits : Nat.toDigits 10 m = Nat.toDigits 10 n := by
    have := congrArg String.toList h
    simpa [LearningDelta.idFor, Nat.toList_repr] using this
  rw [← Nat.ofDigitChars_ten_toDigits (n := m), hdigits, Nat.ofDigitChars_ten_toDigits]

/-- A store that can be written on: its patterns are readable, and its log is not ahead of its
version. -/
structure Healthy (store : PatternStore) : Prop where
  readable : store.Readable
  counted : 0 ≤ store.version
  deltas : ∀ row ∈ store.deltas, row.resultingVersion ≤ store.version ∧
    ∃ n : Nat, (n : Int) ≤ store.version ∧ row.id = LearningDelta.idFor n
  operations : ∀ row ∈ store.operations, row.resultingVersion ≤ store.version

lemma healthy_empty : Healthy .empty where
  readable := readable_empty
  counted := Int.le_refl 0
  deltas := by simp [empty]
  operations := by simp [empty]

/-- Only these tables matter. -/
lemma Healthy.congr (healthy : store.Healthy) (readable : after.Readable)
    (hversion : after.version = store.version) (hdeltas : after.deltas = store.deltas)
    (hoperations : after.operations = store.operations) : after.Healthy where
  readable := readable
  counted := by rw [hversion]; exact healthy.counted
  deltas := by rw [hversion, hdeltas]; exact healthy.deltas
  operations := by rw [hversion, hoperations]; exact healthy.operations

/-- Writes to the patterns keep a store healthy. -/
lemma Writes.healthy {version : Nat} {now : Int} {changes : List PatternChange}
    (h : Writes version now store after changes) (healthy : store.Healthy) : after.Healthy := by
  have readable := h.readable healthy.readable
  obtain ⟨_, _, _, rfl⟩ := h.frame
  exact healthy.congr readable rfl rfl rfl

lemma logChanges_succeeds {version seq : Nat} {changes : List PatternChange}
    (sound : store.faults = .none) (free : ∀ row ∈ store.operations,
      row.resultingVersion = storedWord version → row.seq < seq) :
    ∃ after, store.logChanges version seq changes = .ok after := by
  induction changes generalizing store seq with
  | nil => exact ⟨_, rfl⟩
  | cons change changes ih =>
    obtain ⟨hversion, hseq⟩ := toRow_seq change version seq
    have hname : (change.toRow version seq).op = upsertName ∨
        (change.toRow version seq).op = removeName := by
      cases change with
      | created p => exact .inl rfl
      | updated p => exact .inl rfl
      | removed id => exact .inr rfl
    rw [logChanges]
    refine exists_bind (insertOperation_succeeds sound hname ?fresh) fun mid hmid => ?_
    case fresh =>
      intro row hrow hsame
      have := free row hrow (hsame.trans hversion)
      omega
    obtain ⟨_, rfl⟩ := insertOperation_ok hmid (sound ▸ Faults.honest_none)
    refine ih (by exact sound) fun row hrow hsame => ?_
    rcases List.mem_append.mp hrow with hold | hnew
    · have := free row hold hsame
      omega
    · rw [List.mem_singleton.mp hnew, hseq]
      omega

/-- A commit goes through on a store that is behind the version it leads to. -/
theorem commit_succeeds {delta : LearningDelta} {changes : List PatternChange}
    (sound : store.faults = .none) (healthy : store.Healthy)
    (hpreceding : delta.precedingVersion = readWord store.version)
    (room : store.version + 1 < Word.half) :
    ∃ merged, store.commit delta changes = .ok merged := by
  have counted := healthy.counted
  have honest : store.faults.Honest := sound ▸ Faults.honest_none
  have hword : (delta.precedingVersion : Int) = store.version := by
    rw [hpreceding, natCast_readWord counted]
  have hstored : storedWord delta.precedingVersion = store.version := by
    rw [storedWord_of_lt (by omega), hword]
  have hnext : storedWord (delta.precedingVersion + 1) = store.version + 1 := by
    rw [hpreceding, storedWord_readWord_succ counted room]
  unfold commit
  simp only
  split
  · exact ⟨_, rfl⟩
  · rw [hstored]
    refine exists_bind (advanceVersion_succeeds sound ?next) fun s1 h1 => ?_
    case next =>
      rw [← hword]
      rfl
    obtain ⟨-, rfl⟩ := advanceVersion_ok h1 honest
    refine exists_bind (insertDelta_succeeds (by exact sound) ?fresh) fun s2 h2 => ?_
    case fresh =>
      intro row hrow
      obtain ⟨hversion, n, hn, hid⟩ := healthy.deltas row hrow
      constructor
      · intro hsame
        rw [LearningDelta.toRow_version, hnext] at hsame
        omega
      · intro hsame
        rw [LearningDelta.toRow_id, hid] at hsame
        have := idFor_injective hsame
        omega
    obtain ⟨-, _, rfl⟩ := insertDelta_ok h2 honest
    refine exists_bind (logChanges_succeeds (by exact sound) ?free) fun s3 h3 => ⟨_, rfl⟩
    intro row hrow hsame
    have := healthy.operations row hrow
    rw [hnext] at hsame
    omega

/-- A commit keeps a store healthy, and moves its version on by at most one. -/
theorem commit_healthy {delta : LearningDelta} {changes : List PatternChange} {merged : Merged}
    (h : store.commit delta changes = .ok merged) (honest : store.faults.Honest)
    (healthy : store.Healthy) (hpreceding : delta.precedingVersion = readWord store.version)
    (room : store.version + 1 < Word.half) :
    merged.store.Healthy ∧ merged.store.version ≤ store.version + 1 := by
  have counted := healthy.counted
  have hword : (delta.precedingVersion : Int) = store.version := by
    rw [hpreceding, natCast_readWord counted]
  have hnext : storedWord (delta.precedingVersion + 1) = store.version + 1 := by
    rw [hpreceding, storedWord_readWord_succ counted room]
  obtain ⟨-, -, ⟨-, -, hstore, -⟩ | ⟨-, ⟨hresulting, hid⟩, numbers, hstore⟩⟩ := commit_ok h honest
  · rw [hstore]
    exact ⟨healthy, by omega⟩
  · rw [hnext] at hstore
    have hversion : merged.store.version = store.version + 1 := by rw [hstore]
    refine ⟨?_, Int.le_of_eq hversion⟩
    refine {
      readable := by rw [hstore]; exact healthy.readable
      counted := by omega
      deltas := ?deltas
      operations := ?operations }
    case deltas =>
      intro delta' hdelta
      rw [hversion]
      rw [hstore] at hdelta
      rcases List.mem_append.mp hdelta with hold | hnew
      · obtain ⟨hle, n, hn, hid'⟩ := healthy.deltas delta' hold
        exact ⟨by omega, n, by omega, hid'⟩
      · obtain rfl := List.mem_singleton.mp hnew
        have hrow : merged.delta.toRow.resultingVersion = store.version + 1 := by
          rw [LearningDelta.toRow_version, hresulting, hnext]
        exact ⟨Int.le_of_eq hrow, _, by omega, hid⟩
    case operations =>
      intro operation hoperation
      rw [hversion]
      rw [hstore] at hoperation
      rcases List.mem_append.mp hoperation with hold | hnew
      · have := healthy.operations operation hold
        omega
      · exact Int.le_of_eq ((mem_loggedRows hnew).1.trans hnext)

/-! ## Merges -/

/-- Steps that can be stored are merged. -/
theorem merge_succeeds {policy : LearningPolicy} {origin : Origin} {mode : LearningMode}
    {now : Int} {steps : List MergeStep} (sound : store.faults = .none) (healthy : store.Healthy)
    (room : store.version + 1 < Word.half) (finite : policy.confidence.bonus.isFinite = true)
    (storable : ∀ step ∈ steps, step.Storable) :
    ∃ merged, store.merge policy origin mode (readWord store.version) now steps = .ok merged := by
  have honest : store.faults.Honest := sound ▸ Faults.honest_none
  have hstart : (MergeState.start store).store.faults = .none := sound
  unfold merge
  refine exists_bind ⟨(), by simp [requireVersion]⟩ fun _ _ => ?_
  refine exists_bind (MergeState.steps_succeed hstart storable) fun state hsteps => ?_
  have effect := MergeState.steps_effect honest hsteps
  have hsound : state.store.faults = .none := effect.faults.trans sound
  have hhonest := effect.honest honest
  have hstate : state.store.Healthy := by
    obtain ⟨_, _, _, _, hstore⟩ := effect.frame
    rw [hstore]
    exact healthy.congr healthy.readable rfl rfl rfl
  have hversion : state.store.version = store.version := by
    obtain ⟨_, _, _, _, hstore⟩ := effect.frame
    rw [hstore]
    rfl
  have hids : ∀ id c, state.gained.lookup id = some c → c.id = id := fun _ _ =>
    gained_content effect
  have hwrite : ∀ id ∈ state.toRecompute mode, ∀ s : PatternStore, s.faults = .none →
      s.Readable → ∃ t change, s.recomputePattern policy (readWord store.version + 1) now
        (state.gained.lookup id) (state.gained.lookup id).isSome id = .ok (t, change) ∧
      Written (readWord store.version + 1) now s t change := by
    intro id _ s hs readable
    obtain ⟨⟨t, change⟩, h⟩ := recomputePattern_succeeds hs readable finite
      (readWord store.version + 1) now (state.gained.lookup id)
      (state.gained.lookup id).isSome id
    exact ⟨t, change, h, recomputePattern_written (hs ▸ Faults.honest_none) (hids id) h⟩
  refine exists_bind (collecting_succeeds hwrite hsound hstate.readable [])
    fun ⟨final, changes⟩ hfinal => ?_
  obtain ⟨_, -, writes⟩ := collecting_writes
    (fun id _ s t change hs => recomputePattern_written hs (hids id)) hhonest hfinal
  have hfinalVersion : final.version = store.version := by
    obtain ⟨_, _, _, hframe⟩ := writes.frame
    rw [hframe]
    exact hversion
  refine commit_succeeds (writes.faults.trans hsound) (writes.healthy hstate) ?_ ?_
  · rw [hfinalVersion]
    rfl
  · rw [hfinalVersion]
    exact room

/-- Seeds whose confidences are numbers are brought in. -/
theorem importSeeds_succeeds {policy : LearningPolicy} {now : Int} {seeds : List PatternSeed}
    (sound : store.faults = .none) (healthy : store.Healthy)
    (room : store.version + 1 < Word.half)
    (numbers : ∀ seed ∈ seeds, seed.confidence.isNaN = false) :
    ∃ merged, store.importSeeds policy (readWord store.version) now seeds = .ok merged := by
  have honest : store.faults.Honest := sound ▸ Faults.honest_none
  unfold importSeeds
  refine exists_bind ⟨(), by simp [requireVersion]⟩ fun _ _ => ?_
  have hwrite : ∀ seed ∈ seeds, ∀ s : PatternStore, s.faults = .none → s.Readable →
      ∃ t change, s.importSeed policy (readWord store.version + 1) now seed = .ok (t, change) ∧
        Written (readWord store.version + 1) now s t change := by
    intro seed hseed s hs readable
    obtain ⟨⟨t, change⟩, h⟩ := importSeed_succeeds policy hs readable
      (readWord store.version + 1) now (numbers seed hseed)
    exact ⟨t, change, h, importSeed_written (hs ▸ Faults.honest_none) h⟩
  refine exists_bind (collecting_succeeds hwrite sound healthy.readable [])
    fun ⟨final, changes⟩ hfinal => ?_
  obtain ⟨_, -, writes⟩ := collecting_writes
    (fun seed _ s t change hs => importSeed_written hs) honest hfinal
  have hversion : final.version = store.version := by
    obtain ⟨_, _, _, hframe⟩ := writes.frame
    rw [hframe]
  refine commit_succeeds (writes.faults.trans sound) (writes.healthy healthy) ?_ ?_
  · rw [hversion]
    rfl
  · rw [hversion]
    exact room

end PatternStore

/-! ## Calls -/

/-- What is extracted from a file can be stored: its confidences are numbers. -/
def Sources.Storable (sources : Sources) : Prop :=
  ∀ path content extraction, sources.extract path content = .ok extraction →
    ∀ c ∈ extraction.concepts, c.confidence.isNaN = false

lemma MergeStep.storable_examine {sources : Sources} (storable : sources.Storable)
    (row : Option TrackedFile) (path : String) (revision : Option String) :
    Storable (.examine path revision (sources.examine row path)) := by
  unfold Sources.examine
  split
  · trivial
  · simp only
    split
    · trivial
    · split
      · trivial
      · next hextract => exact storable _ _ _ hextract

lemma LearningTask.steps_storable (task : LearningTask) {sources : Sources}
    (storable : sources.Storable) : ∀ step ∈ task.steps sources, step.Storable := by
  intro step hstep
  obtain ⟨change, -, hchange⟩ := List.mem_filterMap.mp hstep
  simp only [MergeStep.ofChange?] at hchange
  split at hchange
  · obtain rfl := Option.some.inj hchange
    exact MergeStep.storable_examine storable _ _ _
  · split at hchange
    · obtain ⟨source, -, rfl⟩ := Option.map_eq_some_iff.mp hchange
      trivial
    · obtain rfl := Option.some.inj hchange
      trivial

/-- A request that the learner accepts: a batch within its limits that was not called off, or
seeds whose confidences lie between 0 and 1. -/
def LearnerRequest.Accepted (policy : LearningPolicy) : LearnerRequest → Prop
  | learn sources changes origin =>
    (∃ kept, coalesce policy.batchFiles changes = .ok kept) ∧ origin.isCancelled = false ∧
      sources.Storable
  | importSeeds seeds => seeds.forM PatternSeed.check = .ok ()

lemma PatternSeed.isNaN_of_check {seed : PatternSeed} (h : seed.check = .ok ()) :
    seed.confidence.isNaN = false := by
  unfold check at h
  split at h
  · next hrange => exact Binary64.isNaN_of_zero_le hrange.1
  · cases h

namespace LearnerCall

open PatternStore

variable {call : LearnerCall} {store : PatternStore}

/-- A call with an accepted request, a proper configuration and a sound database. -/
structure Proper (call : LearnerCall) : Prop where
  sound : call.faults = .none
  accepted : call.request.Accepted call.policy
  finite : call.policy.confidence.bonus.isFinite = true

/-- A proper call on a healthy store gives an answer that is no error. -/
theorem perform_succeeds (projectId : String) (proper : call.Proper) (healthy : store.Healthy)
    (room : store.version + 1 < Word.half) :
    ∃ delta, (call.perform projectId store).result = .ok delta := by
  have sound : (store.under call.faults).faults = .none := proper.sound
  have healthy : (store.under call.faults).Healthy := healthy.congr healthy.readable rfl rfl rfl
  have accepted := proper.accepted
  unfold perform
  cases hrequest : call.request with
  | learn sources changes origin =>
    rw [hrequest] at accepted
    obtain ⟨⟨kept, hkept⟩, hrunning, storable⟩ := accepted
    obtain ⟨task, hbegin⟩ :=
      LearningTask.exists_begin (store.under call.faults) hkept hrunning
    obtain ⟨-, horigin, hversion, -⟩ := LearningTask.begin_ok hbegin
    simp only [learn, hbegin, LearningTask.finish, LearningTask.merge, horigin, hrunning,
      Bool.false_eq_true, if_false]
    split
    · obtain ⟨merged, hmerged⟩ : ∃ merged, (store.under call.faults).merge call.policy origin
          task.mode task.version call.now (task.steps sources) = .ok merged := by
        rw [hversion]
        exact merge_succeeds sound healthy room proper.finite (task.steps_storable storable)
      rw [hmerged]
      exact ⟨_, rfl⟩
    · exact ⟨_, rfl⟩
  | importSeeds seeds =>
    rw [hrequest] at accepted
    have hcheck : seeds.forM PatternSeed.check = .ok () := accepted
    simp only [importPatterns, hcheck]
    split
    · exact ⟨_, rfl⟩
    · obtain ⟨merged, hmerged⟩ : ∃ merged, (store.under call.faults).importSeeds call.policy
          (readWord (store.under call.faults).version) call.now seeds = .ok merged :=
        importSeeds_succeeds sound healthy room fun _ hseed =>
          PatternSeed.isNaN_of_check (PatternSeed.check_of_forM hcheck hseed)
      rw [hmerged]
      exact ⟨_, rfl⟩

/-- Every call, also one that fails, leaves a healthy store. -/
theorem perform_healthy (projectId : String) (healthy : store.Healthy)
    (room : store.version + 1 < Word.half) :
    (call.perform projectId store).store.Healthy ∧
      (call.perform projectId store).store.version ≤ store.version + 1 := by
  rw [call.perform_store]
  cases hmerged : call.merged? store with
  | none =>
    refine ⟨healthy.congr healthy.readable rfl rfl rfl, ?_⟩
    show store.version ≤ store.version + 1
    omega
  | some merged =>
    obtain ⟨start, final, changes, delta, written⟩ := merged?_written hmerged
    have readable : start.Readable := by
      unfold Readable
      rw [written.patterns]
      exact healthy.readable
    have later := written.writes.healthy
      (healthy.congr readable written.version written.deltas written.operations)
    have hversion : final.version = store.version := by
      obtain ⟨_, _, _, hframe⟩ := written.writes.frame
      rw [hframe]
      exact written.version
    have := commit_healthy written.commit (written.writes.honest written.honest) later
      (by rw [hversion]; exact written.preceding) (by rw [hversion]; exact room)
    rwa [hversion] at this

end LearnerCall

/-! ## Runs -/

namespace LearnerRun

/-- Every call of a run gives an answer that is no error. -/
def Succeeds (projectId : String) (store : PatternStore) (calls : List LearnerCall) : Prop :=
  ∀ step ∈ trace projectId store calls,
    ∃ delta, (step.2.perform projectId step.1).result = .ok delta

/-- A run of proper calls from a healthy store goes through. -/
theorem run_succeeds {store : PatternStore} {calls : List LearnerCall} (projectId : String)
    (proper : ∀ call ∈ calls, call.Proper) (healthy : store.Healthy)
    (few : store.version + calls.length < Word.half) : Succeeds projectId store calls := by
  induction calls generalizing store with
  | nil => exact fun step hstep => nomatch hstep
  | cons call calls ih =>
    rw [List.length_cons] at few
    have room : store.version + 1 < Word.half := by omega
    obtain ⟨later, hversion⟩ := call.perform_healthy projectId healthy room
    have rest := ih (fun c hc => proper c (by simp [hc])) later (by omega)
    intro step hstep
    rcases List.mem_cons.mp hstep with rfl | hrest
    · exact LearnerCall.perform_succeeds projectId (proper call (by simp)) healthy room
    · exact rest step hrest

end LearnerRun

end HouseStyle
