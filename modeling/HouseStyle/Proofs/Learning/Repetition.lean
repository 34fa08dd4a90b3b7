import HouseStyle.Proofs.Learning.FileRows
import HouseStyle.Proofs.Learning.Modes
import HouseStyle.Proofs.Learning.Progress

/-!
# Learning a batch again

When a batch of edits was learned and every file in it was understood, the files that it adds or
modifies are tracked as they read, and those that it deletes are not tracked. So there is nothing
left to do when the batch is learned again. In full mode all patterns are computed anew then, and
each is found to be stored as its evidence makes it.
-/

namespace HouseStyle

/-! ## What a batch reports -/

namespace PatternStore

variable {store : PatternStore}

lemma commit_degraded {delta : LearningDelta} {changes : List PatternChange} {merged : Merged}
    (h : store.commit delta changes = .ok merged) :
    merged.delta.degradedFiles = delta.degradedFiles := by
  unfold commit at h
  simp only at h
  split at h
  · obtain rfl := pure_eq_ok.mp h
    rfl
  · simp only [bind_eq_ok, pure_eq_ok] at h
    obtain ⟨_, -, _, -, _, -, rfl⟩ := h
    rfl

lemma merge_degraded {policy : LearningPolicy} {origin : Origin} {mode : LearningMode}
    {preceding : Nat} {now : Int} {steps : List MergeStep} {merged : Merged}
    (h : store.merge policy origin mode preceding now steps = .ok merged) :
    merged.delta.degradedFiles = steps.filterMap (·.degradedPath?) := by
  simp only [merge, bind_eq_ok] at h
  obtain ⟨_, -, _, -, _, -, hcommit⟩ := h
  exact commit_degraded hcommit

end PatternStore

section Batch

variable {policy : LearningPolicy} {sources : Sources} {projectId : String} {now : Int}
  {store : PatternStore} {changes kept : List FileChange} {origin : Origin}
  {delta : LearningDelta}

/-- The files that a batch reports as degraded are those of its steps. -/
lemma learn_degraded
    (h : (learn policy sources projectId now store changes origin).result = .ok delta) :
    ∃ task, LearningTask.begin policy store changes origin = .ok task ∧
      delta.degradedFiles = (task.steps sources).filterMap (·.degradedPath?) := by
  unfold learn at h
  cases hbegin : LearningTask.begin policy store changes origin with
  | error error => simp [hbegin, Learned.unchanged] at h
  | ok task =>
    refine ⟨task, rfl, ?_⟩
    simp only [hbegin, LearningTask.finish, LearningTask.merge] at h
    split at h
    · simp [Learned.unchanged] at h
    · split at h
      · cases hmerge : store.merge policy task.origin task.mode task.version now
            (task.steps sources) with
        | error error => simp [hmerge, Learned.ofMerge] at h
        | ok merged =>
          simp only [hmerge, Learned.ofMerge, Except.ok.injEq] at h
          rw [← h]
          exact PatternStore.merge_degraded hmerge
      · obtain rfl := Except.ok.inj h
        rfl

/-! ## Edits that are done -/

/-- The file of an edit is tracked as it reads, or it is deleted and not tracked. -/
def FileChange.Settled (change : FileChange) (sources : Sources) (store : PatternStore) : Prop :=
  if change.kind.needsExtraction then
    ∃ content file, sources.read change.path = .ok content ∧
      store.getFile? change.path = some file ∧ file.Current content
  else store.getFile? change.path = none

/-- The edits of a batch are done once it was learned and all its files were understood. -/
theorem learn_settled (honest : store.faults.Honest)
    (hkept : coalesce policy.batchFiles changes = .ok kept) (edits : Coalesce.Edits kept)
    (h : (learn policy sources projectId now store changes origin).result = .ok delta)
    (understood : delta.degradedFiles = []) :
    ∀ change ∈ kept, change.Settled sources
      (learn policy sources projectId now store changes origin).store := by
  intro change hchange
  obtain ⟨task, state, after, hbegin, hsteps, hstore, -, -, hfiles⟩ :=
    LearnerCall.learn_steps honest h
  obtain ⟨task', hbegin', hdegraded⟩ := learn_degraded h
  obtain rfl : task = task' := Except.ok.inj (hbegin.symm.trans hbegin')
  obtain rfl := LearningTask.changes_of_begin hbegin hkept
  have nodup := (Coalesce.coalesce_proper hkept).nodup
  have hrow : after.getFile? change.path = state.store.getFile? change.path := by
    rw [PatternStore.getFile?, hfiles, ← PatternStore.getFile?]
  rw [hstore]
  unfold FileChange.Settled
  rw [hrow]
  split
  · next hread =>
    obtain ⟨before, later, hsplit⟩ := List.append_of_mem hchange
    have hstays : ∀ others, (∀ other ∈ others, other ∈ task.changes) →
        ¬MovesFrom change.path others := by
      rintro others hothers ⟨other, hother, htreatment⟩
      exact edits other (hothers other hother) (FileChange.renamed_of_rekeyed htreatment).1
    have hbefore := hstays before fun other hother => by simp [hsplit, hother]
    have hlater := hstays later fun other hother => by simp [hsplit, hother]
    rw [LearningTask.edited_row honest hbegin nodup hsplit hread hsteps,
      if_neg fun hmoved => hlater hmoved.2, if_neg hbefore]
    refine (sources.examine_tells _ _).current ?_ now
    rw [understood] at hdegraded
    refine List.filterMap_eq_nil_iff.mp hdegraded.symm _ ?_
    rw [LearningTask.steps_edited sources hbegin hsplit hread]
    simp
  · next hread =>
    have hkind : change.kind = .deleted := by
      have edit := edits change hchange
      cases hkind : change.kind with
      | deleted => rfl
      | renamed => exact absurd hkind edit
      | added | modified => rw [hkind] at hread; exact absurd rfl hread
    exact LearningTask.deleted_row honest nodup hchange
      (FileChange.treatment_eq_deleted.mpr hkind) hsteps

/-- Only the files and what is read of them matter. -/
lemma FileChange.Settled.congr {change : FileChange} {again : Sources} {after : PatternStore}
    (settled : change.Settled sources store)
    (hread : again.read change.path = sources.read change.path)
    (hfiles : after.files = store.files) : change.Settled again after := by
  unfold Settled PatternStore.getFile? at settled ⊢
  rw [hread, hfiles]
  exact settled

/-! ## Nothing left to do -/

/-- The step of an edit that is done does nothing. -/
lemma MergeState.edit_idle {state : MergeState} {change : FileChange} {revision : Option String}
    (tracked : Tracked state.store) (settled : change.Settled sources state.store) :
    state.step now (MergeStep.ofEdit sources state.store revision change) = .ok state := by
  unfold MergeStep.ofEdit
  unfold FileChange.Settled at settled
  split at settled
  · next hread =>
    obtain ⟨content, file, hcontent, hfile, current⟩ := settled
    rw [if_pos hread, hfile, Sources.examine_current hcontent current]
    rfl
  · next hread =>
    rw [if_neg hread]
    exact delete_of_bare (tracked.bare settled)

lemma MergeState.edits_idle {state : MergeState} {revision : Option String}
    (tracked : Tracked state.store)
    (settled : ∀ change ∈ kept, change.Settled sources state.store) :
    (kept.map (MergeStep.ofEdit sources state.store revision)).foldlM (MergeState.step now) state =
      .ok state := by
  induction kept with
  | nil => rfl
  | cons change kept ih =>
    rw [List.forall_mem_cons] at settled
    rw [List.map_cons, List.foldlM_cons, edit_idle tracked settled.1]
    exact ih settled.2

namespace PatternStore

/-- Without any step no pattern is written, in whatever mode. -/
lemma recompute_idle (fades : policy.confidence.Fades) (honest : store.faults.Honest)
    (learnt : store.Learnt policy now) (mode : LearningMode) (version : Nat) :
    (MergeState.start store).recompute policy mode version now = .ok (store, []) := by
  have hincremental : (MergeState.start store).recompute policy .incremental version now =
      .ok (store, []) := rfl
  cases mode with
  | full =>
    have hnothing : ([] : List MergeStep).foldlM (MergeState.step now) (.start store) =
        .ok (.start store) := rfl
    rw [recompute_modes fades honest learnt hnothing, hincremental]
  | incremental | skip => exact hincremental

/-- A delta without files and changes is not logged. -/
lemma commit_idle (h : delta.filesTouched = 0) :
    store.commit delta [] = .ok ⟨store, { delta with mode := .skip }, []⟩ := by
  simp only [commit, h, List.isEmpty_nil, and_self, if_true]
  rfl

/-- A merge of steps that do nothing leaves the store as it is. -/
theorem merge_idle (fades : policy.confidence.Fades) (honest : store.faults.Honest)
    (learnt : store.Learnt policy now) (mode : LearningMode) {steps : List MergeStep}
    (h : steps.foldlM (MergeState.step now) (.start store) = .ok (.start store)) :
    ∃ delta, store.merge policy origin mode (readWord store.version) now steps =
      .ok ⟨store, delta, []⟩ ∧ delta.isNoop = true := by
  have hversion : store.requireVersion (readWord store.version) = .ok () := by
    simp [requireVersion]
  simp only [merge, hversion, h, recompute_idle fades honest learnt, bind, Except.bind]
  exact ⟨_, commit_idle rfl, by simp [LearningDelta.isNoop, LearningDelta.noop]⟩

end PatternStore

/-- Learning a batch of edits that are done goes through, says so, and writes nothing. -/
theorem learn_again (fades : policy.confidence.Fades) (honest : store.faults.Honest)
    (learnt : store.Learnt policy now) (hkept : coalesce policy.batchFiles changes = .ok kept)
    (edits : Coalesce.Edits kept) (running : origin.isCancelled = false)
    (settled : ∀ change ∈ kept, change.Settled sources store) :
    ∃ delta, learn policy sources projectId now store changes origin = ⟨store, .ok delta, []⟩ ∧
      delta.isNoop = true := by
  obtain ⟨task, hbegin⟩ := LearningTask.exists_begin store hkept running
  obtain ⟨-, horigin, hversion, -⟩ := LearningTask.begin_ok hbegin
  obtain rfl := LearningTask.changes_of_begin hbegin hkept
  have hidle : (task.steps sources).foldlM (MergeState.step now) (.start store) =
      .ok (.start store) := by
    have tracked : MergeState.Tracked (MergeState.start store).store := learnt.view.tracked
    rw [LearningTask.steps_edits sources hbegin edits]
    exact MergeState.edits_idle tracked settled
  have hrunning : task.origin.isCancelled = false := horigin ▸ running
  simp only [learn, hbegin, LearningTask.finish, LearningTask.merge, hrunning, Bool.false_eq_true,
    if_false]
  split
  · obtain ⟨delta, hmerge, hnoop⟩ : ∃ delta, store.merge policy task.origin task.mode task.version
        now (task.steps sources) = .ok ⟨store, delta, []⟩ ∧ delta.isNoop = true := by
      rw [hversion]
      exact PatternStore.merge_idle fades honest learnt task.mode hidle
    refine ⟨delta, ?_, hnoop⟩
    simp only [hmerge, Learned.ofMerge, Merged.events, hnoop, if_true]
  · exact ⟨_, rfl, by simp [LearningDelta.isNoop, LearningDelta.noop]⟩

end Batch

/-! ## Runs -/

/-- A call that learns the same changes again: it was not called off, and the files of the changes
read as they did. -/
def LearnerCall.Repeats (call : LearnerCall) (sources : Sources) (changes : List FileChange) :
    Prop :=
  ∃ again origin, call.request = .learn again changes origin ∧ origin.isCancelled = false ∧
    ∀ change ∈ changes,
      again.read (Path.normalize change.path) = sources.read (Path.normalize change.path)

/-- What is kept of a batch of edits is for paths that the batch names. -/
lemma Coalesce.Kept.named {changes kept : List FileChange} (edited : Kept changes kept)
    {change : FileChange} (h : change ∈ kept) :
    ∃ original ∈ changes, Path.normalize original.path = change.path := by
  have hlast := edited.last change.path
  rw [Table.lookup_of_mem FileChange.path edited.nodup h, Option.map_some] at hlast
  obtain ⟨original, horiginal, -⟩ := Option.map_eq_some_iff.mp hlast.symm
  obtain ⟨hmem, hpath⟩ := List.mem_filter.mp (List.mem_of_getLast? horiginal)
  exact ⟨original, hmem, beq_iff_eq.mp hpath⟩

namespace LearnerRun

open PatternStore

/-- As long as the clock does not go back, a batch of edits that are done can be learned again any
number of times. -/
theorem trace_again {policy : LearningPolicy} (fades : policy.confidence.Fades)
    (projectId : String) {sources : Sources} {changes kept : List FileChange}
    (hkept : coalesce policy.batchFiles changes = .ok kept) (edited : Coalesce.Kept changes kept)
    {again : List LearnerCall} (one : ∀ call ∈ again, call.policy = policy)
    (repeats : ∀ call ∈ again, call.Repeats sources changes) {clock : Int}
    (forward : (clock :: again.map (·.now)).Pairwise (· ≤ ·)) {store : PatternStore}
    (learnt : store.Learnt policy clock) (settled : ∀ change ∈ kept, change.Settled sources store) :
    ∀ step ∈ trace projectId store again, ∃ delta,
      step.2.perform projectId step.1 = ⟨step.1.under step.2.faults, .ok delta, []⟩ ∧
        delta.isNoop = true := by
  induction again generalizing store clock with
  | nil => simp [trace]
  | cons call calls ih =>
    obtain ⟨⟨sources', origin, hrequest, running, hread⟩, hrepeats⟩ :=
      List.forall_mem_cons.mp repeats
    obtain ⟨rfl, hone⟩ := List.forall_mem_cons.mp one
    obtain ⟨hclock, hforward⟩ := List.pairwise_cons.mp forward
    have learnt' := (learnt.later (hclock call.now (by simp))).under call.faults
    have settled' : ∀ change ∈ kept, change.Settled sources' (store.under call.faults) := by
      intro change hchange
      obtain ⟨original, horiginal, hpath⟩ := edited.named hchange
      exact (settled change hchange).congr (hpath ▸ hread original horiginal) rfl
    obtain ⟨delta, hperform, hnoop⟩ : ∃ delta, call.perform projectId store =
        ⟨store.under call.faults, .ok delta, []⟩ ∧ delta.isNoop = true := by
      unfold LearnerCall.perform
      rw [hrequest]
      exact learn_again fades call.honest learnt' hkept edited.edits running settled'
    rw [trace, List.forall_mem_cons]
    refine ⟨⟨delta, hperform, hnoop⟩, ?_⟩
    rw [hperform]
    exact ih hone hrepeats hforward learnt' fun change hchange =>
      (settled change hchange).congr rfl rfl

def sampleSteadyAgain : LearnerCall := { sampleSteadyLearn with now := 7, signed := by decide }

lemma sampleSteadyLearn_proper : sampleSteadyLearn.Proper where
  sound := rfl
  accepted := by
    have hcoalesce : (coalesce 10 [.added "a.py"]).isOk = true := by decide
    refine ⟨exists_ok hcoalesce, rfl, ?_⟩
    intro path content extraction hextraction c hc
    obtain rfl := Except.ok.inj hextraction
    cases hc
  finite := by decide

/-- The file is understood. -/
lemma sampleSteadyLearn_understood {delta : LearningDelta}
    (h : (sampleSteadyLearn.perform "sample" .empty).result = .ok delta) :
    delta.degradedFiles = [] := by
  obtain ⟨task, hbegin, hdegraded⟩ := learn_degraded h
  have htask : task = ⟨[.added "a.py"], .manual, 0, [], .incremental⟩ :=
    (Except.ok.inj hbegin).symm
  rw [hdegraded, htask]
  decide +kernel

end LearnerRun

end HouseStyle
