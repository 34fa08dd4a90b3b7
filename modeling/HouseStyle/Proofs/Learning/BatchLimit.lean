import HouseStyle.Proofs.Learning.Draining
import HouseStyle.Service.Scheduler

/-!
# The limit of a batch

A queue hands out as many changes as the settings allow in a batch, and the learner counts the
changes once more after it has coalesced them. Coalescing never makes a batch longer, though it
removes files that no change names. So a batch that was drained is never too long, with one
exception: the settings may allow no change at all, where a queue hands out one nevertheless.
-/

namespace HouseStyle

/-- The answer to a batch with more changes than the limit. -/
def LearnError.oversized (count limit : Nat) : LearnError :=
  .invalidBatch ("batch has " ++ toString count ++ " files, limit is " ++ toString limit)

namespace Coalesce

variable {kept changes : List FileChange} {change : FileChange} {count limit : Nat}

/-! ## What is said of a malformed change -/

lemma checkedPath_error {path : String} {error : LearnError} (h : checkedPath path = .error error) :
    ∃ problem rest, error = .invalidBatch (Path.Problem.message problem ++ rest) := by
  unfold checkedPath at h
  simp only at h
  split at h
  · next problem _ =>
    refine ⟨problem, ": '" ++ path ++ "'", ?_⟩
    rw [← Except.error.inj h]
    simp only [String.append_assoc]
  · cases h

/-- A malformed change is rejected for one of its paths, or for a path that it lacks. -/
lemma checked_error {error : LearnError} (h : checked change = .error error) :
    (∃ problem rest, error = .invalidBatch (Path.Problem.message problem ++ rest)) ∨
      ∃ rest, error = .invalidBatch ("rename of " ++ rest) := by
  unfold checked at h
  cases hpath : checkedPath change.path with
  | error found =>
    rw [hpath] at h
    obtain rfl : found = error := Except.error.inj h
    exact .inl (checkedPath_error hpath)
  | ok path =>
    simp only [hpath, bind, Except.bind] at h
    split at h
    · split at h
      · refine .inr ⟨path ++ " has no previous path", ?_⟩
        rw [← Except.error.inj h, String.append_assoc]
      · next previous _ =>
        cases hsource : checkedPath previous with
        | error found =>
          rw [hsource] at h
          obtain rfl : found = error := Except.error.inj h
          exact .inl (checkedPath_error hsource)
        | ok source =>
          simp only [hsource] at h
          split at h <;> cases h
    · cases h

/-- It is told apart by its first letter. -/
lemma checked_ne_oversized : checked change ≠ .error (.oversized count limit) := by
  intro h
  have hcount : ∀ rest, ("batch has " ++ rest).toList.head? = some 'b' := by
    intro rest
    rw [String.toList_append]
    rfl
  rcases checked_error h with ⟨problem, rest, htext⟩ | ⟨rest, htext⟩
  · have hproblem : (problem.message ++ rest).toList.head? = some 'p' := by
      rw [String.toList_append]
      cases problem <;> rfl
    rw [← LearnError.invalidBatch.inj htext, String.append_assoc, String.append_assoc,
      hcount] at hproblem
    cases hproblem
  · have hrename : ("rename of " ++ rest).toList.head? = some 'r' := by
      rw [String.toList_append]
      rfl
    rw [← LearnError.invalidBatch.inj htext, String.append_assoc, String.append_assoc,
      hcount] at hrename
    cases hrename

/-! ## How long a coalesced batch is -/

lemma place_ne_nil (kept : List FileChange) (change : FileChange) : place kept change ≠ [] := by
  intro hnil
  have hfound := pending?_place kept change change.path
  simp [hnil, pending?] at hfound

lemma add_ne_nil (kept : List FileChange) (change : FileChange) : add kept change ≠ [] := by
  unfold add
  simp only
  split
  · split <;> exact place_ne_nil _ _
  · exact place_ne_nil _ _

/-- Something is kept of acceptable changes if there are any. -/
lemma foldlM_ne_nil {all : List FileChange}
    (h : changes.foldlM (fun kept change => do return add kept (← checked change)) kept = .ok all)
    (hsome : kept ≠ [] ∨ changes ≠ []) : all ≠ [] := by
  induction changes generalizing kept with
  | nil =>
    obtain rfl := pure_eq_ok.mp h
    exact hsome.resolve_right (by simp)
  | cons change changes ih =>
    simp only [List.foldlM_cons, bind_eq_ok, pure_eq_ok] at h
    obtain ⟨_, ⟨found, -, rfl⟩, hrest⟩ := h
    exact ih hrest (.inl (add_ne_nil kept found))

end Coalesce

/-- What becomes of a batch by itself: its first malformed change has it rejected; or it comes to
no more changes than it has, and is rejected only where these are more than the limit. -/
inductive Coalesced (limit : Nat) (changes : List FileChange) : Prop where
  | malformed (error : LearnError) : (¬ ∀ change ∈ changes, change.Acceptable) →
    coalesce limit changes = .error error → (∀ count bound, error ≠ .oversized count bound) →
    Coalesced limit changes
  | kept (all : List FileChange) : (∀ change ∈ changes, change.Acceptable) →
    all.length ≤ changes.length → (changes ≠ [] → all ≠ []) →
    coalesce limit changes =
      (if limit < all.length then .error (.oversized all.length limit) else .ok all) →
    Coalesced limit changes

theorem coalesced (limit : Nat) (changes : List FileChange) : Coalesced limit changes := by
  by_cases acceptable : ∀ change ∈ changes, change.Acceptable
  · obtain ⟨all, hall, hlength⟩ := Coalesce.foldlM_add acceptable []
    refine .kept all acceptable (by simpa using hlength)
      (fun hsome => Coalesce.foldlM_ne_nil hall (.inr hsome)) ?_
    unfold coalesce
    rw [hall]
    simp only [bind, Except.bind]
    split <;> rfl
  · obtain ⟨good, bad, rest, error, hchanges, hgood, hbad⟩ := exists_malformed acceptable
    refine .malformed error acceptable ?_ ?_
    · rw [coalesce, hchanges, Coalesce.foldlM_malformed hgood hbad]
      rfl
    · rintro count bound rfl
      exact Coalesce.checked_ne_oversized hbad

/-- A batch within the limit is never too long. -/
lemma coalesce_ne_oversized {limit count : Nat} {changes : List FileChange}
    (h : changes.length ≤ limit) : coalesce limit changes ≠ .error (.oversized count limit) := by
  intro hoversized
  cases coalesced limit changes with
  | malformed error _ herror hne =>
    exact hne count limit (Except.error.inj (herror.symm.trans hoversized))
  | kept all _ hlength _ hkept =>
    rw [if_neg (by omega), hoversized] at hkept
    cases hkept

/-- No change is within no limit. -/
lemma coalesce_zero {changes : List FileChange} (hsome : changes ≠ []) :
    (∃ count, coalesce 0 changes = .error (.oversized count 0)) ↔
      ∀ change ∈ changes, change.Acceptable := by
  constructor
  · rintro ⟨count, hoversized⟩
    cases coalesced 0 changes with
    | malformed error _ herror hne =>
      exact absurd (Except.error.inj (herror.symm.trans hoversized)) (hne count 0)
    | kept _ acceptable => exact acceptable
  · intro acceptable
    cases coalesced 0 changes with
    | malformed _ hnot => exact absurd acceptable hnot
    | kept all _ _ hall hkept =>
      rw [if_pos (List.length_pos_iff.mpr (hall hsome))] at hkept
      exact ⟨all.length, hkept⟩

/-! ## Learners and workers -/

variable {policy : LearningPolicy} {sources : Sources} {projectId : String} {now : Int}
  {store : PatternStore} {changes : List FileChange} {origin : Origin} {count limit : Nat}

/-- A batch that has begun is not called too long any more. -/
lemma LearningTask.finish_ne_oversized (task : LearningTask) :
    (task.finish policy sources projectId now store).result ≠ .error (.oversized count limit) := by
  unfold LearningTask.finish LearningTask.merge
  split
  · simp [Learned.unchanged, LearnError.oversized]
  · split
    · cases store.merge policy task.origin task.mode task.version now (task.steps sources) with
      | ok merged => simp [Learned.ofMerge]
      | error error => simp [Learned.ofMerge, LearnError.oversized]
    · simp [Learned.unchanged]

lemma LearningTask.begin_oversized_iff :
    LearningTask.begin policy store changes origin = .error (.oversized count limit) ↔
      coalesce policy.batchFiles changes = .error (.oversized count limit) := by
  unfold LearningTask.begin
  cases coalesce policy.batchFiles changes with
  | error error => simp [bind, Except.bind]
  | ok kept =>
    cases hcancelled : origin.isCancelled <;>
      simp [bind, Except.bind, pure, Except.pure, LearnError.oversized, throw, throwThe,
        MonadExceptOf.throw]

/-- Only the check of a batch calls it too long. -/
theorem learn_oversized_iff :
    (learn policy sources projectId now store changes origin).result =
        .error (.oversized count limit) ↔
      coalesce policy.batchFiles changes = .error (.oversized count limit) := by
  have hbegin : LearningTask.begin policy store changes origin = .error (.oversized count limit) ↔
      coalesce policy.batchFiles changes = .error (.oversized count limit) :=
    LearningTask.begin_oversized_iff
  rw [← hbegin]
  unfold learn
  cases LearningTask.begin policy store changes origin with
  | error error => simp [Learned.unchanged]
  | ok task => simp [task.finish_ne_oversized]

namespace ChangeQueue

lemma length_le_of_drain? {queue rest : ChangeQueue} {batch : ChangeBatch}
    (h : queue.drain? limit = some (batch, rest)) : batch.changes.length ≤ max limit 1 := by
  obtain ⟨top, -, rfl, -⟩ := drain?_eq_some.mp h
  rw [List.length_map]
  exact List.length_take_le _ _

end ChangeQueue

namespace Work

/-- A worker that takes a batch within the limit on never records that it is too long. -/
lemma takeOn_fits {context : WorkContext} {work : Work} {batch : ChangeBatch}
    (h : batch.changes.length ≤ context.policy.batchFiles) :
    ∀ result ∈ (takeOn context work batch).results, result ∈ work.results ∨
      ∀ count, result ≠ .error (.oversized count context.policy.batchFiles) := by
  unfold takeOn
  simp only
  split
  · next error herror =>
    intro result hresult
    rcases List.mem_append.mp hresult with hold | hnew
    · exact .inl hold
    · refine .inr fun count hoversized => ?_
      rw [List.mem_singleton.mp hnew] at hoversized
      obtain rfl := Except.error.inj hoversized
      exact coalesce_ne_oversized h (LearningTask.begin_oversized_iff.mp herror)
  · next task _ =>
    split
    · exact fun result hresult => .inl hresult
    · intro result hresult
      rcases List.mem_append.mp hresult with hold | hnew
      · exact .inl hold
      · exact .inr fun count => List.mem_singleton.mp hnew ▸ task.finish_ne_oversized

lemma runFor_fits {context : WorkContext} (some : context.policy.batchFiles ≠ 0) (n : Nat)
    (work : Work) : ∀ result ∈ (runFor context n work).results, result ∈ work.results ∨
      ∀ count, result ≠ .error (.oversized count context.policy.batchFiles) := by
  induction n generalizing work with
  | zero => exact fun result hresult => .inl hresult
  | succ n ih =>
    unfold runFor
    split
    · exact fun result hresult => .inl hresult
    · split
      · exact fun result hresult => .inl hresult
      · next batch queue hdrain =>
        intro result hresult
        have hlength := ChangeQueue.length_le_of_drain? hdrain
        rcases ih _ result hresult with hfirst | hfits
        · have hfits : batch.changes.length ≤ context.policy.batchFiles := by omega
          exact (takeOn_fits hfits result hfirst :)
        · exact .inr hfits

/-- Where a change is allowed in a batch, no batch of a worker is rejected for its length. -/
theorem run_fits {context : WorkContext} (some : context.policy.batchFiles ≠ 0) (work : Work) :
    ∀ result ∈ (work.run context).results, result ∈ work.results ∨
      ∀ count, result ≠ .error (.oversized count context.policy.batchFiles) :=
  runFor_fits some _ work

end Work

namespace ChangeQueue

/-- Whatever was done with a queue, a batch that is drained with the limit of the settings is
rejected for its length by a learner with the same settings exactly when no change is allowed and
each change is acceptable; and where changes are allowed, acceptable ones go through. -/
theorem drained_fits (service : Service) (calls : List Call) {batch : ChangeBatch}
    {rest : ChangeQueue}
    (hdrain : (empty.afterCalls calls).drain? service.settings.workers.batchFiles =
      some (batch, rest)) :
    (∀ sources projectId now store origin,
      (∃ count, (learn service.learningPolicy sources projectId now store batch.changes
          origin).result = .error (.oversized count service.settings.workers.batchFiles)) ↔
        service.settings.workers.batchFiles = 0 ∧ ∀ change ∈ batch.changes, change.Acceptable) ∧
    (service.settings.workers.batchFiles ≠ 0 → (∀ change ∈ batch.changes, change.Acceptable) →
      ∃ kept, coalesce service.learningPolicy.batchFiles batch.changes = .ok kept ∧
        kept.length ≤ batch.changes.length) := by
  have hpolicy : service.learningPolicy.batchFiles = service.settings.workers.batchFiles := rfl
  have hlength := length_le_of_drain? hdrain
  have hnonempty : batch.changes ≠ [] := by
    have nodup := (numbered_empty.afterCalls calls).nodup
    have hpending : (empty.afterCalls calls).pending ≠ [] := by
      intro hnil
      rw [drain?_eq_none.mpr hnil] at hdrain
      cases hdrain
    obtain ⟨found, _, hfound, taken⟩ :=
      drain?_taken nodup hpending service.settings.workers.batchFiles
    obtain ⟨rfl, -⟩ := Prod.mk.inj (Option.some.inj (hfound.symm.trans hdrain))
    exact taken.some
  simp only [learn_oversized_iff, hpolicy]
  generalize service.settings.workers.batchFiles = limit at *
  by_cases hlimit : limit = 0
  · subst hlimit
    exact ⟨fun _ _ _ _ _ => by simpa using coalesce_zero hnonempty, fun h => absurd rfl h⟩
  · have hfits : batch.changes.length ≤ limit := by omega
    refine ⟨fun _ _ _ _ _ => ?_, fun _ acceptable => ?_⟩
    · simp [hlimit, coalesce_ne_oversized hfits]
    · cases coalesced limit batch.changes with
      | malformed _ hnot => exact absurd acceptable hnot
      | kept all _ hshorter _ hkept =>
        rw [if_neg (by omega)] at hkept
        exact ⟨all, hkept, hshorter⟩

/-! A file that is renamed and written anew, so that its edit stands before its rename in the queue,
with settings that allow two changes in a batch, and with settings that allow none. -/

def sampleCalls : List Call :=
  [.push (.deleted "a.ts") .watch, .push (.renamed "a.ts" "b.ts") .watch,
    .push (.added "a.ts") .watch]

def sampleChanges : List FileChange := [.added "a.ts", .renamed "a.ts" "b.ts"]

def sampleService (files : Nat) : Service where
  options := ⟨.inMemory, none, none, fun _ _ => .ok ⟨[], false⟩⟩
  settings := { Settings.unset with workers := { WorkerSettings.unset with maxBatchFiles := files } }
  host := ⟨.directory [], ⟨none, []⟩, .none, 0, 0, []⟩
  portfolioNumber := 0
  projects := []
  attached := []
  syncing := []
  scheduler := .start

lemma sampleCalls_drained (limit : Nat) : ∃ rest, (empty.afterCalls sampleCalls).drain? limit =
    some (⟨.watch, sampleChanges.take (max limit 1), none⟩, rest) := by
  have hpending : (empty.afterCalls sampleCalls).pending =
      [⟨.added "a.ts", .watch, 0⟩, ⟨.renamed "a.ts" "b.ts", .watch, 1⟩] := by decide
  have hsorted : ((empty.afterCalls sampleCalls).pending.filter (·.trigger == .watch)).mergeSort
      earlier = [⟨.added "a.ts", .watch, 0⟩, ⟨.renamed "a.ts" "b.ts", .watch, 1⟩] := by
    rw [hpending]
    exact List.mergeSort_of_pairwise (by decide)
  have hrevision : (sampleChanges.take (max limit 1)).filterMap (·.revision) = [] :=
    List.filterMap_eq_nil_iff.mpr fun change hchange => by
      rcases List.mem_pair.mp (List.mem_of_mem_take hchange) with rfl | rfl <;> rfl
  refine ⟨_, drain?_eq_some.mpr ⟨.watch, by rw [topTrigger?, hpending]; rfl, ?_, rfl⟩⟩
  rw [hsorted, List.map_take]
  change _ = ChangeBatch.mk .watch _
    ((sampleChanges.take (max limit 1)).filterMap (·.revision)).getLast?
  rw [hrevision]
  rfl

lemma sampleChanges_acceptable : ∀ change ∈ sampleChanges, change.Acceptable := by
  intro change hchange
  rcases List.mem_pair.mp hchange with rfl | rfl
  · exact ⟨.added "a.ts", by decide⟩
  · exact ⟨.renamed "a.ts" "b.ts", by decide⟩

theorem sampleCalls_fit : ∃ kept,
    coalesce (sampleService 2).learningPolicy.batchFiles sampleChanges = .ok kept ∧
      kept.length ≤ 2 := by
  obtain ⟨rest, hdrain⟩ := sampleCalls_drained 2
  exact (drained_fits (sampleService 2) sampleCalls hdrain).2 (by decide) sampleChanges_acceptable

theorem sampleCalls_rejected : (sampleService 0).settings.validate = .ok () ∧
    (∃ rest, (empty.afterCalls sampleCalls).drain? (sampleService 0).settings.workers.batchFiles =
      some (⟨.watch, [.added "a.ts"], none⟩, rest)) ∧
    coalesce (sampleService 0).learningPolicy.batchFiles [.added "a.ts"] =
      .error (.oversized 1 0) :=
  ⟨by decide, sampleCalls_drained 0, by decide⟩

end ChangeQueue

end HouseStyle
