import HouseStyle.Learning.Learner
import HouseStyle.Proofs.Learning.Batch
import HouseStyle.Proofs.Learning.FileSteps
import HouseStyle.Proofs.Learning.PatternWrites

/-!
# Calls of the learner and runs of calls

A call learns a batch or brings seeds in, at some time and on a database that may refuse
any of its writes. What it leaves is the store of its merge, when there is one and it goes
through, and otherwise the store as it was. A run performs calls one after another.
-/

namespace HouseStyle

/-! ## Merges -/

namespace LearningDelta

lemma toRow_version (delta : LearningDelta) :
    delta.toRow.resultingVersion = storedWord delta.resultingVersion := by rw [toRow]

lemma toRow_preceding (delta : LearningDelta) :
    delta.toRow.precedingVersion = storedWord delta.precedingVersion := by rw [toRow]

lemma toRow_id (delta : LearningDelta) : delta.toRow.id = delta.id := rfl

end LearningDelta

namespace PatternStore

variable {store after : PatternStore}

/-- Perform a write for an item and collect what it reports. -/
def collecting {α : Type}
    (write : PatternStore → α → Except StorageError (PatternStore × Option PatternChange))
    (progress : PatternStore × List PatternChange) (item : α) :
    Except StorageError (PatternStore × List PatternChange) := do
  let (store, change) ← write progress.1 item
  return (store, progress.2 ++ change.toList)

/-- Writes one after another, with all that they report. -/
inductive Writes (version : Nat) (now : Int) :
    PatternStore → PatternStore → List PatternChange → Prop where
  | nil (store : PatternStore) : Writes version now store store []
  | cons {store mid after : PatternStore} {change : Option PatternChange}
    {changes : List PatternChange} : Written version now store mid change →
    Writes version now mid after changes →
    Writes version now store after (change.toList ++ changes)

/-- A write to the patterns leaves all other tables but the tombstones alone. -/
lemma Written.frame {version : Nat} {now : Int} {change : Option PatternChange}
    (h : Written version now store after change) :
    ∃ patterns tombstones numbers, after = { store with patterns, tombstones, numbers } := by
  cases h with
  | kept => exact ⟨_, _, _, rfl⟩
  | buried => exact ⟨_, _, _, rfl⟩
  | put => exact ⟨_, _, _, rfl⟩

lemma Writes.frame {version : Nat} {now : Int} {changes : List PatternChange}
    (h : Writes version now store after changes) :
    ∃ patterns tombstones numbers, after = { store with patterns, tombstones, numbers } := by
  induction h with
  | nil => exact ⟨_, _, _, rfl⟩
  | cons first _ ih =>
    obtain ⟨_, _, _, rfl⟩ := first.frame
    obtain ⟨_, _, _, rfl⟩ := ih
    exact ⟨_, _, _, rfl⟩

lemma Written.honest {version : Nat} {now : Int} {change : Option PatternChange}
    (h : Written version now store after change) (honest : store.faults.Honest) :
    after.faults.Honest := by
  obtain ⟨_, _, _, rfl⟩ := h.frame
  exact honest

lemma Writes.honest {version : Nat} {now : Int} {changes : List PatternChange}
    (h : Writes version now store after changes) (honest : store.faults.Honest) :
    after.faults.Honest := by
  obtain ⟨_, _, _, rfl⟩ := h.frame
  exact honest

lemma Written.nodup {version : Nat} {now : Int} {change : Option PatternChange}
    (h : Written version now store after change)
    (nodup : (store.patterns.map (·.patternId)).Nodup) :
    (after.patterns.map (·.patternId)).Nodup := by
  cases h with
  | kept => exact nodup
  | buried => exact Table.nodup_filter _ _ _ nodup
  | put => exact keyed_patterns.nodup_put _ nodup

lemma Writes.nodup {version : Nat} {now : Int} {changes : List PatternChange}
    (h : Writes version now store after changes)
    (nodup : (store.patterns.map (·.patternId)).Nodup) :
    (after.patterns.map (·.patternId)).Nodup := by
  induction h with
  | nil => exact nodup
  | cons first _ ih => exact ih (first.nodup nodup)

/-- A fold over items is a chain of writes, when each item is. -/
lemma collecting_writes {α : Type} {version : Nat} {now : Int}
    {write : PatternStore → α → Except StorageError (PatternStore × Option PatternChange)}
    {items : List α}
    (hwrite : ∀ item ∈ items, ∀ (s t : PatternStore) (change : Option PatternChange),
      s.faults.Honest → write s item = .ok (t, change) → Written version now s t change)
    (honest : store.faults.Honest) {before all : List PatternChange}
    (h : items.foldlM (collecting write) (store, before) = .ok (after, all)) :
    ∃ changes, all = before ++ changes ∧ Writes version now store after changes := by
  induction items generalizing store before with
  | nil =>
    obtain ⟨rfl, rfl⟩ := Prod.mk.inj (pure_eq_ok.mp h)
    exact ⟨[], by simp, .nil _⟩
  | cons item items ih =>
    simp only [List.foldlM_cons, collecting, bind_eq_ok, pure_eq_ok] at h
    obtain ⟨_, ⟨⟨mid, change⟩, hfirst, rfl⟩, hrest⟩ := h
    have first := hwrite item (by simp) store mid change honest hfirst
    obtain ⟨changes, rfl, rest⟩ :=
      ih (fun item hitem => hwrite item (by simp [hitem])) (first.honest honest) hrest
    exact ⟨change.toList ++ changes, by simp, .cons first rest⟩

/-! ## Commits -/

/-- The logged form of changes, numbered from `seq` on. -/
def loggedRows (version : Nat) : Nat → List PatternChange → List OperationRow
  | _, [] => []
  | seq, change :: changes => change.toRow version seq :: loggedRows version (seq + 1) changes

lemma toRow_seq (change : PatternChange) (version seq : Nat) :
    (change.toRow version seq).resultingVersion = storedWord version ∧
      (change.toRow version seq).seq = seq := by
  cases change <;> simp only [PatternChange.toRow, and_self]

lemma mem_loggedRows {version seq : Nat} {changes : List PatternChange} {row : OperationRow}
    (h : row ∈ loggedRows version seq changes) :
    row.resultingVersion = storedWord version ∧ (seq : Int) ≤ row.seq := by
  induction changes generalizing seq with
  | nil => cases h
  | cons change changes ih =>
    rcases List.mem_cons.mp h with rfl | h
    · obtain ⟨hversion, hseq⟩ := toRow_seq change version seq
      exact ⟨hversion, Int.le_of_eq hseq.symm⟩
    · obtain ⟨hversion, hseq⟩ := ih h
      exact ⟨hversion, by omega⟩

lemma logChanges_ok {version seq : Nat} {changes : List PatternChange}
    (h : store.logChanges version seq changes = .ok after) (honest : store.faults.Honest) :
    ∃ numbers, after = { store with
      operations := store.operations ++ loggedRows version seq changes, numbers } := by
  induction changes generalizing store seq with
  | nil =>
    obtain rfl : store = after := by simpa [logChanges] using h
    exact ⟨store.numbers, by simp [loggedRows]⟩
  | cons change changes ih =>
    simp only [logChanges, bind_eq_ok] at h
    obtain ⟨mid, hfirst, hrest⟩ := h
    obtain ⟨_, rfl⟩ := insertOperation_ok hfirst honest
    obtain ⟨numbers, rfl⟩ := ih hrest honest
    exact ⟨numbers, by simp [loggedRows]⟩

/-- A commit that goes through either finds nothing to log, or moves the version on by one
and adds one delta and the operations to the log. -/
theorem commit_ok {delta : LearningDelta} {changes : List PatternChange} {merged : Merged}
    (h : store.commit delta changes = .ok merged) (honest : store.faults.Honest) :
    merged.changes = changes ∧ merged.delta.precedingVersion = delta.precedingVersion ∧
    ((delta.filesTouched = 0 ∧ changes = [] ∧ merged.store = store ∧
        merged.delta.resultingVersion = delta.resultingVersion) ∨
      (store.version = storedWord delta.precedingVersion ∧
        (merged.delta.resultingVersion = delta.precedingVersion + 1 ∧
          merged.delta.id = LearningDelta.idFor (delta.precedingVersion + 1)) ∧
        ∃ numbers, merged.store = { store with
          version := storedWord (delta.precedingVersion + 1)
          deltas := store.deltas ++ [merged.delta.toRow]
          operations := store.operations ++ loggedRows (delta.precedingVersion + 1) 0 changes
          numbers })) := by
  unfold commit at h
  simp only at h
  split at h
  · next hnoop =>
    have hnil : changes = [] := by simpa using hnoop.2
    obtain rfl := pure_eq_ok.mp h
    exact ⟨hnil.symm, rfl, .inl ⟨hnoop.1, hnil, rfl, rfl⟩⟩
  · simp only [bind_eq_ok, pure_eq_ok] at h
    obtain ⟨s1, h1, s2, h2, s3, h3, rfl⟩ := h
    obtain ⟨hversion, rfl⟩ := advanceVersion_ok h1 honest
    obtain ⟨-, _, rfl⟩ := insertDelta_ok h2 honest
    obtain ⟨numbers, rfl⟩ := logChanges_ok h3 honest
    refine ⟨rfl, rfl, .inr ⟨hversion, ⟨rfl, rfl⟩, numbers, ?_⟩⟩
    with_reducible rfl

/-- A merge of a batch that goes through: the steps, the patterns, the commit. -/
theorem merge_ok {policy : LearningPolicy} {origin : Origin} {mode : LearningMode}
    {preceding : Nat} {now : Int} {steps : List MergeStep} {merged : Merged}
    (h : store.merge policy origin mode preceding now steps = .ok merged) :
    readWord store.version = preceding ∧ ∃ state final changes delta,
      steps.foldlM (MergeState.step now) (.start store) = .ok state ∧
      (state.toRecompute mode).foldlM (collecting fun store id =>
        store.recomputePattern policy (preceding + 1) now (state.gained.lookup id)
          (state.gained.lookup id).isSome id) (state.store, []) = .ok (final, changes) ∧
      (delta.precedingVersion = preceding ∧ delta.resultingVersion = preceding) ∧
      delta.filesTouched = state.filesTouched ∧ final.commit delta changes = .ok merged := by
  simp only [merge, bind_eq_ok] at h
  obtain ⟨⟨⟩, hversion, state, hsteps, ⟨final, changes⟩, hrecompute, hcommit⟩ := h
  refine ⟨?_, state, final, changes, _, hsteps, hrecompute, ⟨?_, ?_⟩, ?_, hcommit⟩
  · unfold requireVersion at hversion
    simp only at hversion
    split at hversion
    · next heq => exact heq
    · cases hversion
  · rfl
  · rfl
  · rfl

/-- An import that goes through: the seeds, then the commit. -/
theorem importSeeds_ok {policy : LearningPolicy} {preceding : Nat} {now : Int}
    {seeds : List PatternSeed} {merged : Merged}
    (h : store.importSeeds policy preceding now seeds = .ok merged) :
    readWord store.version = preceding ∧ ∃ final changes delta,
      seeds.foldlM (collecting fun store seed =>
        store.importSeed policy (preceding + 1) now seed) (store, []) = .ok (final, changes) ∧
      (delta.precedingVersion = preceding ∧ delta.resultingVersion = preceding) ∧
      final.commit delta changes = .ok merged := by
  simp only [importSeeds, bind_eq_ok] at h
  obtain ⟨⟨⟩, hversion, ⟨final, changes⟩, himport, hcommit⟩ := h
  refine ⟨?_, final, changes, _, himport, ⟨?_, ?_⟩, hcommit⟩
  · unfold requireVersion at hversion
    simp only at hversion
    split at hversion
    · next heq => exact heq
    · cases hversion
  · rfl
  · rfl

lemma lookup_gained {gained : List (String × PatternContent)} {k : String}
    {c : PatternContent} (h : gained.lookup k = some c) : (k, c) ∈ gained := by
  induction gained with
  | nil => simp at h
  | cons entry gained ih =>
    rw [List.lookup_cons] at h
    split at h
    · next hkey =>
      obtain rfl := by simpa using h
      rw [beq_iff_eq] at hkey
      simp [hkey]
    · exact List.mem_cons_of_mem _ (ih h)

/-- What a batch says of a pattern is found under the id of its content. -/
lemma gained_content {state : MergeState} (effect : MergeState.Effect (.start store) state)
    {k : String} {c : PatternContent} (h : state.gained.lookup k = some c) : c.id = k := by
  obtain ⟨seen, hseen, hall⟩ := effect.gained
  have hmem : (k, c) ∈ seen := by
    have := lookup_gained h
    rw [hseen] at this
    simpa [MergeState.start] using this
  have hid := hall (k, c) hmem
  simp only at hid
  exact hid.symm

/-- A commit writes the version and the log. -/
lemma commit_tables {delta : LearningDelta} {changes : List PatternChange} {merged : Merged}
    (h : store.commit delta changes = .ok merged) (honest : store.faults.Honest) :
    merged.store.patterns = store.patterns ∧ merged.store.concepts = store.concepts ∧
      merged.store.evidence = store.evidence ∧ merged.store.files = store.files := by
  obtain ⟨-, -, ⟨-, -, hstore, -⟩ | ⟨-, -, _, hstore⟩⟩ := commit_ok h honest <;>
    rw [hstore] <;> exact ⟨rfl, rfl, rfl, rfl⟩

/-- The parts of a merge of a batch: the state that its steps lead to, the patterns written
from there on, and the tables in the end. -/
structure MergeParts (store : PatternStore) (policy : LearningPolicy) (mode : LearningMode)
    (preceding : Nat) (now : Int) (steps : List MergeStep) (merged : Merged)
    (state : MergeState) (final : PatternStore) (changes : List PatternChange) : Prop where
  version : readWord store.version = preceding
  steps : steps.foldlM (MergeState.step now) (.start store) = .ok state
  effect : MergeState.Effect (.start store) state
  recompute : (state.toRecompute mode).foldlM (collecting fun store id =>
    store.recomputePattern policy (preceding + 1) now (state.gained.lookup id)
      (state.gained.lookup id).isSome id) (state.store, []) = .ok (final, changes)
  writes : Writes (preceding + 1) now state.store final changes
  commit : ∃ delta : LearningDelta,
    (delta.precedingVersion = preceding ∧ delta.resultingVersion = preceding) ∧
    delta.filesTouched = state.filesTouched ∧ final.commit delta changes = .ok merged
  patterns : merged.store.patterns = final.patterns
  concepts : merged.store.concepts = state.store.concepts
  evidence : merged.store.evidence = state.store.evidence
  files : merged.store.files = state.store.files

theorem merge_parts {policy : LearningPolicy} {origin : Origin} {mode : LearningMode}
    {preceding : Nat} {now : Int} {steps : List MergeStep} {merged : Merged}
    (h : store.merge policy origin mode preceding now steps = .ok merged)
    (honest : store.faults.Honest) :
    ∃ state final changes,
      MergeParts store policy mode preceding now steps merged state final changes := by
  obtain ⟨hversion, state, final, changes, delta, hsteps, hrecompute, hdelta, htouched, hcommit⟩ :=
    merge_ok h
  have effect := MergeState.steps_effect honest hsteps
  obtain ⟨changes', hall, writes⟩ := collecting_writes
    (fun k _ s t change hs ht => recomputePattern_written hs
      (fun c => gained_content effect) ht) (effect.honest honest) hrecompute
  rw [List.nil_append] at hall
  subst hall
  obtain ⟨_, _, _, hfinal⟩ := writes.frame
  obtain ⟨hpatterns, hconcepts, hevidence, hfiles⟩ :=
    commit_tables hcommit (writes.honest (effect.honest honest))
  exact ⟨state, final, changes, {
    version := hversion
    steps := hsteps
    effect := effect
    recompute := hrecompute
    writes := writes
    commit := ⟨delta, hdelta, htouched, hcommit⟩
    patterns := hpatterns
    concepts := by rw [hconcepts, hfinal]
    evidence := by rw [hevidence, hfinal]
    files := by rw [hfiles, hfinal] }⟩

/-- The parts of an import. -/
structure ImportParts (store : PatternStore) (policy : LearningPolicy) (preceding : Nat)
    (now : Int) (seeds : List PatternSeed) (merged : Merged) (final : PatternStore)
    (changes : List PatternChange) : Prop where
  version : readWord store.version = preceding
  imports : seeds.foldlM (collecting fun store seed =>
    store.importSeed policy (preceding + 1) now seed) (store, []) = .ok (final, changes)
  writes : Writes (preceding + 1) now store final changes
  commit : ∃ delta : LearningDelta,
    (delta.precedingVersion = preceding ∧ delta.resultingVersion = preceding) ∧
    final.commit delta changes = .ok merged
  patterns : merged.store.patterns = final.patterns
  concepts : merged.store.concepts = store.concepts
  evidence : merged.store.evidence = store.evidence
  files : merged.store.files = store.files

theorem importSeeds_parts {policy : LearningPolicy} {preceding : Nat} {now : Int}
    {seeds : List PatternSeed} {merged : Merged}
    (h : store.importSeeds policy preceding now seeds = .ok merged)
    (honest : store.faults.Honest) :
    ∃ final changes, ImportParts store policy preceding now seeds merged final changes := by
  obtain ⟨hversion, final, changes, delta, himport, hdelta, hcommit⟩ := importSeeds_ok h
  obtain ⟨changes', hall, writes⟩ := collecting_writes
    (fun seed _ s t change hs ht => importSeed_written hs ht) honest himport
  rw [List.nil_append] at hall
  subst hall
  obtain ⟨_, _, _, hfinal⟩ := writes.frame
  obtain ⟨hpatterns, hconcepts, hevidence, hfiles⟩ :=
    commit_tables hcommit (writes.honest honest)
  exact ⟨final, changes, {
    version := hversion
    imports := himport
    writes := writes
    commit := ⟨delta, hdelta, hcommit⟩
    patterns := hpatterns
    concepts := by rw [hconcepts, hfinal]
    evidence := by rw [hevidence, hfinal]
    files := by rw [hfiles, hfinal] }⟩

/-- The store on a database that refuses other writes than before. -/
def under (store : PatternStore) (faults : Faults) : PatternStore := { store with faults }

/-- The part of a pattern's frequency that was brought in from outside. -/
def baselineOf (store : PatternStore) (id : String) : Nat :=
  ((store.getPattern? id).map (readWord ·.baseline)).getD 0

end PatternStore

/-! ## Calls -/

/-- Seeds that are checked together are checked one by one. -/
lemma PatternSeed.check_of_forM {seeds : List PatternSeed}
    (h : seeds.forM PatternSeed.check = .ok ()) {seed : PatternSeed} (hseed : seed ∈ seeds) :
    seed.check = .ok () := by
  induction seeds with
  | nil => cases hseed
  | cons first seeds ih =>
    change (first.check >>= fun _ => seeds.forM PatternSeed.check) = .ok () at h
    obtain ⟨⟨⟩, hfirst, hrest⟩ := bind_eq_ok.mp h
    rcases List.mem_cons.mp hseed with rfl | hseed
    · exact hfirst
    · exact ih hrest hseed

inductive LearnerRequest where
  | learn (sources : Sources) (changes : List FileChange) (origin : Origin)
  | importSeeds (seeds : List PatternSeed)

/-- A request, the configuration and the time it is made with, and the faults of the database
then. Times are signed 64-bit words. -/
structure LearnerCall where
  request : LearnerRequest
  policy : LearningPolicy
  now : Int
  faults : Faults
  signed : Word.isSigned now = true
  honest : faults.Honest

namespace LearnerRequest

/-- The merge of a request, when it comes to one. -/
def merge? (request : LearnerRequest) (policy : LearningPolicy) (now : Int)
    (store : PatternStore) : Option (Except StorageError Merged) :=
  match request with
  | learn sources changes origin =>
    match LearningTask.begin policy store changes origin with
    | .error _ => none
    | .ok task =>
      let steps := task.steps sources
      if task.origin.isCancelled then none
      else if steps.any (·.isWork) then
        some (store.merge policy task.origin task.mode task.version now steps)
      else none
  | importSeeds seeds =>
    match seeds.forM PatternSeed.check with
    | .error _ => none
    | .ok () =>
      if seeds.isEmpty then none
      else some (store.importSeeds policy (readWord store.version) now seeds)

/-- The ids of the patterns that a request brings in. -/
def imported : LearnerRequest → List String
  | learn .. => []
  | importSeeds seeds => seeds.map (·.content.id)

end LearnerRequest

/-- A call that writes nothing. It announces at most that a merge was discarded, and answers with
an error or with a delta that leads nowhere. -/
structure Learned.Idle (before : PatternStore) (learned : Learned) : Prop where
  store : learned.store = before
  events : ∀ event ∈ learned.events, ∃ projectId preceding code message,
    event = .deltaDiscarded projectId preceding code message
  result : ∀ delta, learned.result = .ok delta → ∃ origin now degraded,
    delta = .noop origin (readWord before.version) now degraded

namespace Learned

lemma idle_failed (store : PatternStore) (error : LearnError) :
    Idle store (.unchanged store (.error error)) where
  store := rfl
  events := by simp [unchanged]
  result := by simp [unchanged]

lemma idle_noop (store : PatternStore) (origin : Origin) (now : Int) (degraded : List String) :
    Idle store (.unchanged store (.ok (.noop origin (readWord store.version) now degraded))) where
  store := rfl
  events := by simp [unchanged]
  result := by
    rintro delta ⟨⟩
    exact ⟨origin, now, degraded, rfl⟩

lemma idle_discarded (store : PatternStore) (projectId : String) (preceding : Nat)
    (source : StorageError) :
    Idle store (.ofMerge store projectId preceding (.error source)) where
  store := rfl
  events := by simp [ofMerge]
  result := by simp [ofMerge]

end Learned

namespace LearnerCall

/-- Perform a call for a project. -/
def perform (call : LearnerCall) (projectId : String) (store : PatternStore) : Learned :=
  match call.request with
  | .learn sources changes origin =>
    learn call.policy sources projectId call.now (store.under call.faults) changes origin
  | .importSeeds seeds =>
    importPatterns call.policy projectId call.now (store.under call.faults) seeds

/-- The merge of a call, when there is one and it goes through. -/
def merged? (call : LearnerCall) (store : PatternStore) : Option Merged :=
  match call.request.merge? call.policy call.now (store.under call.faults) with
  | some (.ok merged) => some merged
  | some (.error _) | none => none

/-- A call answers and announces what its merge does, or it is idle. -/
theorem perform_cases (call : LearnerCall) (projectId : String) (store : PatternStore) :
    match call.merged? store with
    | some merged =>
      call.perform projectId store = ⟨merged.store, .ok merged.delta, merged.events projectId⟩
    | none => (call.perform projectId store).Idle (store.under call.faults) := by
  unfold perform merged? LearnerRequest.merge?
  generalize store.under call.faults = before
  cases call.request with
  | learn sources changes origin =>
    simp only [learn]
    cases hbegin : LearningTask.begin call.policy before changes origin with
    | error error => exact Learned.idle_failed before error
    | ok task =>
      simp only [LearningTask.finish, LearningTask.merge]
      by_cases hcancelled : task.origin.isCancelled = true
      · simp only [hcancelled, if_true]
        exact Learned.idle_failed before .cancelled
      · by_cases hwork : (task.steps sources).any (·.isWork) = true
        · simp only [hcancelled, hwork, if_true, if_false, Bool.false_eq_true]
          cases before.merge call.policy task.origin task.mode task.version call.now
            (task.steps sources) with
          | error error => exact Learned.idle_discarded before projectId task.version error
          | ok merged => rfl
        · simp only [hcancelled, hwork, if_false, Bool.false_eq_true]
          obtain ⟨-, -, hversion, -⟩ := LearningTask.begin_ok hbegin
          rw [hversion]
          exact Learned.idle_noop before ..
  | importSeeds seeds =>
    simp only [importPatterns]
    cases seeds.forM PatternSeed.check with
    | error error => exact Learned.idle_failed before error
    | ok =>
      by_cases hnil : seeds.isEmpty = true
      · simp only [hnil, if_true]
        exact Learned.idle_noop before ..
      · simp only [hnil, if_false, Bool.false_eq_true]
        cases before.importSeeds call.policy (readWord before.version) call.now seeds with
        | error error => exact Learned.idle_discarded before projectId _ error
        | ok merged => rfl

/-- A call leaves what its merge leaves. One without a merge, and one whose merge fails,
leaves the store alone. -/
theorem perform_store (call : LearnerCall) (projectId : String) (store : PatternStore) :
    (call.perform projectId store).store =
      match call.merged? store with
      | some merged => merged.store
      | none => store.under call.faults := by
  have hcases := call.perform_cases projectId store
  cases hmerged : call.merged? store with
  | none =>
    rw [hmerged] at hcases
    exact hcases.store
  | some merged =>
    rw [hmerged] at hcases
    rw [hcases]

/-- A call whose merge goes through merges a batch or brings seeds in. -/
theorem merged?_cases {call : LearnerCall} {store : PatternStore} {merged : Merged}
    (h : call.merged? store = some merged) :
    (∃ sources changes origin task, call.request = .learn sources changes origin ∧
      LearningTask.begin call.policy (store.under call.faults) changes origin = .ok task ∧
      (store.under call.faults).merge call.policy task.origin task.mode task.version call.now
        (task.steps sources) = .ok merged) ∨
    ∃ seeds, call.request = .importSeeds seeds ∧
      (store.under call.faults).importSeeds call.policy (readWord store.version) call.now seeds =
        .ok merged := by
  unfold merged? at h
  split at h
  · next hmerge =>
    obtain rfl := by simpa using h
    unfold LearnerRequest.merge? at hmerge
    split at hmerge
    · next sources changes origin hrequest =>
      split at hmerge
      · cases hmerge
      · next task hbegin =>
        simp only at hmerge
        split at hmerge
        · cases hmerge
        · split at hmerge
          · exact .inl ⟨sources, changes, origin, task, hrequest, hbegin, by simpa using hmerge⟩
          · cases hmerge
    · next seeds hrequest =>
      split at hmerge
      · cases hmerge
      · split at hmerge
        · cases hmerge
        · exact .inr ⟨seeds, hrequest, by simpa [PatternStore.under] using hmerge⟩
  · cases h
  · cases h

/-- What a call that comes to a merge writes to the patterns: it starts from the patterns, the
tombstones and the log as they were, and ends with a commit. -/
structure Written (call : LearnerCall) (store : PatternStore) (merged : Merged)
    (start final : PatternStore) (changes : List PatternChange) (delta : LearningDelta) :
    Prop where
  version : start.version = store.version
  patterns : start.patterns = store.patterns
  tombstones : start.tombstones = store.tombstones
  deltas : start.deltas = store.deltas
  operations : start.operations = store.operations
  honest : start.faults.Honest
  preceding : delta.precedingVersion = readWord store.version
  resulting : delta.resultingVersion = delta.precedingVersion
  /-- A merge that counts no file has left all files alone. -/
  idle : MergeState.Tracked store → delta.filesTouched = 0 → start = store.under call.faults
  tracked : MergeState.Tracked store → MergeState.Tracked merged.store
  writes : PatternStore.Writes (delta.precedingVersion + 1) call.now start final changes
  commit : final.commit delta changes = .ok merged

/-- Every call that comes to a merge writes patterns and commits them. -/
theorem merged?_written {call : LearnerCall} {store : PatternStore} {merged : Merged}
    (h : call.merged? store = some merged) :
    ∃ start final changes delta, call.Written store merged start final changes delta := by
  rcases merged?_cases h with
    ⟨sources, changes, origin, task, -, -, hmerge⟩ | ⟨seeds, -, himport⟩
  · obtain ⟨state, final, changes, parts⟩ := PatternStore.merge_parts hmerge call.honest
    obtain ⟨delta, ⟨hpreceding, hresulting⟩, htouched, hcommit⟩ := parts.commit
    obtain ⟨_, _, _, _, hstate⟩ := parts.effect.frame
    exact ⟨state.store, final, changes, delta, {
      version := by rw [hstate]; rfl
      patterns := by rw [hstate]; rfl
      tombstones := by rw [hstate]; rfl
      deltas := by rw [hstate]; rfl
      operations := by rw [hstate]; rfl
      honest := parts.effect.honest call.honest
      preceding := hpreceding.trans parts.version.symm
      resulting := hresulting.trans hpreceding.symm
      idle := by
        intro tracked hidle
        have started : MergeState.Tracked (MergeState.start (store.under call.faults)).store :=
          tracked.congr rfl rfl rfl
        rcases MergeState.steps_count started call.honest parts.steps with hmore | ⟨-, hstore⟩
        · simp only [MergeState.start] at hmore
          omega
        · exact hstore
      tracked := by
        intro tracked
        have stepped := parts.effect.tracked (tracked.congr rfl rfl rfl)
        exact stepped.congr parts.concepts parts.evidence parts.files
      writes := hpreceding ▸ parts.writes
      commit := hcommit }⟩
  · obtain ⟨final, changes, parts⟩ := PatternStore.importSeeds_parts himport call.honest
    obtain ⟨delta, ⟨hpreceding, hresulting⟩, hcommit⟩ := parts.commit
    exact ⟨store.under call.faults, final, changes, delta, {
      version := rfl
      patterns := rfl
      tombstones := rfl
      deltas := rfl
      operations := rfl
      honest := call.honest
      preceding := hpreceding
      resulting := hresulting.trans hpreceding.symm
      idle := fun _ _ => rfl
      tracked := fun tracked => tracked.congr parts.concepts parts.evidence parts.files
      writes := hpreceding ▸ parts.writes
      commit := hcommit }⟩

/-- After a call concepts and evidence belong to tracked files, if they did before. -/
theorem perform_tracked (call : LearnerCall) (projectId : String) {store : PatternStore}
    (tracked : MergeState.Tracked store) :
    MergeState.Tracked (call.perform projectId store).store := by
  rw [call.perform_store]
  cases hmerged : call.merged? store with
  | none => exact tracked.congr rfl rfl rfl
  | some merged =>
    obtain ⟨_, _, _, _, written⟩ := merged?_written hmerged
    exact written.tracked tracked

/-- A batch that is learned has either no work, and leaves the store alone, or its merge goes
through. -/
theorem learn_ok {policy : LearningPolicy} {sources : Sources} {projectId : String} {now : Int}
    {store : PatternStore} {changes : List FileChange} {origin : Origin} {delta : LearningDelta}
    (h : (learn policy sources projectId now store changes origin).result = .ok delta) :
    ∃ task, LearningTask.begin policy store changes origin = .ok task ∧
      (((task.steps sources).any (·.isWork) = false ∧
        (learn policy sources projectId now store changes origin).store = store) ∨
      ∃ merged, store.merge policy task.origin task.mode task.version now
          (task.steps sources) = .ok merged ∧
        (learn policy sources projectId now store changes origin).store = merged.store) := by
  unfold learn at h ⊢
  cases hbegin : LearningTask.begin policy store changes origin with
  | error error => simp [hbegin, Learned.unchanged] at h
  | ok task =>
    simp only [hbegin, LearningTask.finish, LearningTask.merge] at h ⊢
    refine ⟨task, rfl, ?_⟩
    by_cases hcancelled : task.origin.isCancelled = true
    · simp [hcancelled, Learned.unchanged] at h
    · rw [if_neg hcancelled] at h ⊢
      by_cases hwork : (task.steps sources).any (·.isWork) = true
      · rw [if_pos hwork] at h ⊢
        cases hmerge : store.merge policy task.origin task.mode task.version now
            (task.steps sources) with
        | error error => simp [hmerge, Learned.ofMerge] at h
        | ok merged => exact .inr ⟨merged, rfl, rfl⟩
      · rw [if_neg hwork]
        exact .inl ⟨by simpa using hwork, rfl⟩

/-- A batch that is learned leaves the concepts, the evidence and the files that its steps lead
to. -/
theorem learn_steps {policy : LearningPolicy} {sources : Sources} {projectId : String} {now : Int}
    {store : PatternStore} {changes : List FileChange} {origin : Origin} {delta : LearningDelta}
    (honest : store.faults.Honest)
    (h : (learn policy sources projectId now store changes origin).result = .ok delta) :
    ∃ task state after, LearningTask.begin policy store changes origin = .ok task ∧
      (task.steps sources).foldlM (MergeState.step now) (.start store) = .ok state ∧
      (learn policy sources projectId now store changes origin).store = after ∧
      after.concepts = state.store.concepts ∧ after.evidence = state.store.evidence ∧
      after.files = state.store.files := by
  obtain ⟨task, hbegin, ⟨hidle, hstore⟩ | ⟨merged, hmerge, hstore⟩⟩ := learn_ok h
  · exact ⟨task, _, _, hbegin, MergeState.foldlM_idle _ hidle, hstore, rfl, rfl, rfl⟩
  · obtain ⟨state, final, changes, parts⟩ := PatternStore.merge_parts hmerge honest
    exact ⟨task, state, _, hbegin, parts.steps, hstore, parts.concepts, parts.evidence,
      parts.files⟩

/-- The frequencies that a call leads to stay below the upper half of the 64-bit words. -/
def Fits (call : LearnerCall) (store : PatternStore) : Prop :=
  ∀ merged, call.merged? store = some merged →
    match call.request with
    | .learn .. => ∀ id, store.baselineOf id + merged.store.countForPattern id < Word.half
    | .importSeeds seeds => ∀ seed ∈ seeds,
      seed.frequency + store.countForPattern seed.content.id < Word.half

end LearnerCall

/-! ## Runs -/

namespace LearnerRun

/-- Perform calls one after another. -/
def run (projectId : String) : PatternStore → List LearnerCall → PatternStore
  | store, [] => store
  | store, call :: calls => run projectId (call.perform projectId store).store calls

lemma run_append (projectId : String) (store : PatternStore) (calls more : List LearnerCall) :
    run projectId store (calls ++ more) = run projectId (run projectId store calls) more := by
  induction calls generalizing store with
  | nil => rfl
  | cons call calls ih => exact ih _

/-- Every call of a run with the store that it meets. -/
def trace (projectId : String) :
    PatternStore → List LearnerCall → List (PatternStore × LearnerCall)
  | _, [] => []
  | store, call :: calls =>
    (store, call) :: trace projectId (call.perform projectId store).store calls

lemma trace_append (projectId : String) (store : PatternStore) (calls more : List LearnerCall) :
    trace projectId store (calls ++ more) =
      trace projectId store calls ++ trace projectId (run projectId store calls) more := by
  induction calls generalizing store with
  | nil => rfl
  | cons call calls ih => exact congrArg _ (ih _)

lemma mem_trace {projectId : String} {store : PatternStore} {calls : List LearnerCall}
    {step : PatternStore × LearnerCall} (h : step ∈ trace projectId store calls) :
    step.2 ∈ calls := by
  induction calls generalizing store with
  | nil => cases h
  | cons call calls ih =>
    rcases List.mem_cons.mp h with rfl | h
    · exact List.mem_cons_self
    · exact List.mem_cons_of_mem _ (ih h)

/-- The ids of all patterns that a run brings in. -/
def imported (calls : List LearnerCall) : List String :=
  calls.flatMap (·.request.imported)

/-! Calls on a sound database at time 0, for runs that are looked at below. -/

def samplePolicy : LearningPolicy := ⟨0.5, 3, 10, ⟨0, 0.1⟩⟩

lemma samplePolicy_finite : samplePolicy.confidence.bonus.isFinite = true := by decide

lemma isSigned_zero : Word.isSigned 0 = true := by decide

def sampleCall (request : LearnerRequest) : LearnerCall :=
  ⟨request, samplePolicy, 0, .none, isSigned_zero, Faults.honest_none⟩

end LearnerRun

end HouseStyle
