import HouseStyle.Proofs.Learning.Renames

/-!
# The row of a file through a batch

Some step of a batch may put a row under a path, and others may take it away. For a path that a
batch edits or deletes only the step of its own change puts a row there. So the row that the path
has in the end is told by what came of reading the file, and by the renames from the path before
and after that.
-/

namespace HouseStyle

/-- A file is tracked as its text says, and was understood. -/
def TrackedFile.Current (file : TrackedFile) (content : String) : Prop :=
  file.contentHash = Digest.ofText content ∧ file.degraded = false

/-- What came of reading a file tells of its text, of the row it had, and of what is found in it. -/
def Reading.Tells (reading : Reading) (sources : Sources) (row : Option TrackedFile)
    (path : String) : Prop :=
  match reading with
  | .unchanged => ∃ content file, sources.read path = .ok content ∧ row = some file ∧
    file.Current content
  | .analyzed analysis => ∃ content, sources.read path = .ok content ∧
    analysis.contentHash = Digest.ofText content ∧ ∀ file, row = some file → ¬file.Current content
  | .failed => ∀ content, sources.read path = .ok content →
    ∃ error, sources.extract path content = .error error

/-- The row of a file that was read, when it had another or none before. -/
def Reading.row (reading : Reading) (now : Int) (path : String) (revision : Option String)
    (old : Option TrackedFile) : Option TrackedFile :=
  match reading with
  | .analyzed analysis => some (MergeState.analyzedFile now path revision analysis)
  | .unchanged | .failed => old

lemma Sources.examine_tells (sources : Sources) (row : Option TrackedFile) (path : String) :
    (sources.examine row path).Tells sources row path := by
  unfold examine
  cases hread : sources.read path with
  | error error =>
    intro content hcontent
    rw [hread] at hcontent
    cases hcontent
  | ok content =>
    simp only
    split
    · next hcurrent =>
      obtain ⟨file, hfile, hsame⟩ := (Option.any_eq_true _ _).mp hcurrent
      rw [Bool.and_eq_true, beq_iff_eq, Bool.not_eq_true'] at hsame
      exact ⟨content, file, hread, hfile, hsame⟩
    · next hchanged =>
      cases hextract : sources.extract path content with
      | error error =>
        intro other hother
        obtain rfl := Except.ok.inj (hread.symm.trans hother)
        exact ⟨error, hextract⟩
      | ok extraction =>
        refine ⟨content, hread, rfl, fun file hfile current => hchanged ?_⟩
        rw [hfile, Option.any_some, current.1, current.2]
        simp

/-- A file that was read and understood is tracked as it reads. -/
lemma Reading.Tells.current {reading : Reading} {sources : Sources} {row : Option TrackedFile}
    {path : String} {revision : Option String} (tells : reading.Tells sources row path)
    (understood : (MergeStep.examine path revision reading).degradedPath? = none) (now : Int) :
    ∃ content file, sources.read path = .ok content ∧
      reading.row now path revision row = some file ∧ file.Current content := by
  cases reading with
  | failed => cases understood
  | unchanged => exact tells
  | analyzed analysis =>
    obtain ⟨content, hcontent, hdigest, -⟩ := tells
    have hclear : analysis.degraded = false := by
      simpa [MergeStep.degradedPath?] using understood
    exact ⟨content, _, hcontent, rfl, hdigest, hclear⟩

/-- A file that is tracked as it reads is passed over. -/
lemma Sources.examine_current {sources : Sources} {path content : String} {file : TrackedFile}
    (hread : sources.read path = .ok content) (current : file.Current content) :
    sources.examine (some file) path = .unchanged := by
  simp only [examine, hread, Option.any_some, current.1, current.2, beq_self_eq_true,
    Bool.not_false, Bool.and_self, if_true]

/-! ## Steps -/

instance MergeStep.decidableEmpties (path : String) : DecidablePred (MergeStep.Empties path)
  | .examine .. => .isFalse id
  | .delete target => inferInstanceAs (Decidable (target = path))
  | .rename source target _ => inferInstanceAs (Decidable (source = path ∧ target ≠ path))

namespace MergeState

variable {state after : MergeState} {now : Int} {path : String}

/-- A step that does not fill a path takes its row away or leaves it. -/
lemma step_row (honest : state.store.faults.Honest) {step : MergeStep}
    (h : MergeState.step now state step = .ok after) (hfills : ¬step.Fills path) :
    after.store.getFile? path =
      if step.Empties path then none else state.store.getFile? path := by
  cases step with
  | examine target revision reading =>
    rw [if_neg (show ¬MergeStep.Empties path (.examine target revision reading) from id)]
    cases reading with
    | analyzed analysis => rw [getFile?_examine honest h, if_neg (Ne.symm hfills)]
    | unchanged => cases h; rfl
    | failed => cases h; rfl
  | delete target =>
    rw [getFile?_delete honest h]
    exact if_congr eq_comm rfl rfl
  | rename source target revision =>
    have htarget : path ≠ target := Ne.symm hfills
    rw [getFile?_rename honest h]
    by_cases hsource : source = path
    · subst hsource
      rw [if_pos ⟨rfl, htarget.symm⟩, lookup_renamedFiles, lookup_movedFiles _ htarget,
        if_neg htarget, if_pos rfl, Option.map_none]
    · rw [if_neg fun empties => hsource empties.1,
        lookup_renamedFiles_other _ _ (Ne.symm hsource) htarget]
      rfl

theorem steps_row {steps : List MergeStep} (honest : state.store.faults.Honest)
    (h : steps.foldlM (MergeState.step now) state = .ok after)
    (hfills : ∀ step ∈ steps, ¬step.Fills path) :
    after.store.getFile? path =
      if ∃ step ∈ steps, step.Empties path then none else state.store.getFile? path := by
  induction steps generalizing state with
  | nil =>
    cases h
    simp
  | cons step steps ih =>
    rw [List.foldlM_cons, bind_eq_ok] at h
    obtain ⟨mid, hstep, hrest⟩ := h
    rw [List.forall_mem_cons] at hfills
    rw [ih ((step_effect honest hstep).honest honest) hrest hfills.2,
      step_row honest hstep hfills.1]
    simp only [List.exists_mem_cons_iff]
    by_cases hlater : ∃ step ∈ steps, step.Empties path
    · rw [if_pos hlater, if_pos (.inr hlater)]
    · simp only [hlater, or_false, if_false]

/-- The row of a path that is examined once. -/
theorem examined_row {first last : List MergeStep} {revision : Option String} {reading : Reading}
    (honest : state.store.faults.Honest)
    (h : (first ++ .examine path revision reading :: last).foldlM (MergeState.step now) state =
      .ok after)
    (hfirst : ∀ step ∈ first, ¬step.Fills path) (hlast : ∀ step ∈ last, ¬step.Fills path) :
    after.store.getFile? path =
      if ∃ step ∈ last, step.Empties path then none
      else reading.row now path revision
        (if ∃ step ∈ first, step.Empties path then none else state.store.getFile? path) := by
  rw [List.foldlM_append, bind_eq_ok] at h
  obtain ⟨mid, hbefore, h⟩ := h
  rw [List.foldlM_cons, bind_eq_ok] at h
  obtain ⟨next, hstep, hafter⟩ := h
  have honest' := (steps_effect honest hbefore).honest honest
  rw [steps_row ((step_effect honest' hstep).honest honest') hafter hlast,
    ← steps_row honest hbefore hfirst]
  congr 1
  cases reading with
  | analyzed analysis =>
    rw [getFile?_examine honest' hstep, if_pos rfl]
    rfl
  | unchanged => cases hstep; rfl
  | failed => cases hstep; rfl

end MergeState

/-! ## Batches -/

/-- The rows of a path are moved away by one of the changes. -/
def MovesFrom (path : String) (changes : List FileChange) : Prop :=
  ∃ change ∈ changes, change.treatment = .rekeyed path

instance (path : String) (changes : List FileChange) : Decidable (MovesFrom path changes) :=
  inferInstanceAs (Decidable (∃ change ∈ changes, change.treatment = .rekeyed path))

namespace MergeStep

variable {sources : Sources} {tracked : List TrackedFile} {revision : Option String}
  {change : FileChange} {step : MergeStep} {path : String}

/-- A step for another path empties this one if it renames it, and if it is tracked. -/
lemma ofChange?_empties (h : ofChange? sources tracked revision change = some step)
    (hother : change.path ≠ path) : step.Empties path ↔
      change.treatment = .rekeyed path ∧ tracked.any (·.filePath == path) = true := by
  constructor
  · intro empties
    simp only [ofChange?] at h
    split at h
    · obtain rfl := Option.some.inj h
      exact absurd empties id
    · next hread =>
      split at h
      · next hkind =>
        obtain ⟨source, hsource, rfl⟩ := Option.map_eq_some_iff.mp h
        obtain rfl : source = path := empties.1
        refine ⟨?_, by simpa [FileChange.isRead, hkind, hsource] using hread⟩
        simp [FileChange.treatment, hkind, hsource, Ne.symm hother]
      · obtain rfl := Option.some.inj h
        exact absurd empties hother
  · rintro ⟨htreatment, htracked⟩
    obtain ⟨revision', hstep⟩ : ∃ revision', ofChange? sources tracked revision change =
        some (rename path change.path revision') := ofChange?_rekeyed htreatment htracked
    obtain rfl := Option.some.inj (h.symm.trans hstep)
    exact ⟨rfl, hother⟩

variable {changes : List FileChange}

/-- Changes of other paths do not fill this one. -/
lemma others_fills (hothers : ∀ other ∈ changes, other.path ≠ path) :
    ∀ step ∈ changes.filterMap (ofChange? sources tracked revision), ¬step.Fills path := by
  intro step hstep fills
  obtain ⟨other, hother, hstep⟩ := List.mem_filterMap.mp hstep
  exact hothers other hother (ofChange?_fills hstep fills).1

/-- They empty it when it is tracked and one of them renames it. -/
lemma others_empties (hothers : ∀ other ∈ changes, other.path ≠ path) :
    (∃ step ∈ changes.filterMap (ofChange? sources tracked revision), step.Empties path) ↔
      tracked.any (·.filePath == path) = true ∧ MovesFrom path changes := by
  constructor
  · rintro ⟨step, hstep, empties⟩
    obtain ⟨other, hother, hstep⟩ := List.mem_filterMap.mp hstep
    obtain ⟨htreatment, htracked⟩ := (ofChange?_empties hstep (hothers other hother)).mp empties
    exact ⟨htracked, other, hother, htreatment⟩
  · rintro ⟨htracked, other, hother, htreatment⟩
    obtain ⟨revision', hstep⟩ : ∃ revision', ofChange? sources tracked revision other =
        some (rename path other.path revision') := ofChange?_rekeyed htreatment htracked
    exact ⟨_, List.mem_filterMap.mpr ⟨other, hother, hstep⟩, rfl, hothers other hother⟩

end MergeStep

namespace LearningTask

variable {policy : LearningPolicy} {store : PatternStore} {changes : List FileChange}
  {origin : Origin} {task : LearningTask} {change : FileChange} {before later : List FileChange}
  {sources : Sources} {now : Int} {state : MergeState}

/-- The steps of a batch around that of an edited file. -/
lemma steps_edited (sources : Sources)
    (h : LearningTask.begin policy store changes origin = .ok task)
    (hsplit : task.changes = before ++ change :: later)
    (hread : change.kind.needsExtraction = true) :
    let steps := List.filterMap
      (MergeStep.ofChange? sources task.tracked task.origin.revision)
    task.steps sources = steps before ++
      .examine change.path (change.revision.or task.origin.revision)
        (sources.examine (store.getFile? change.path) change.path) :: steps later := by
  obtain ⟨-, -, -, htracked⟩ := begin_ok h
  have hrow : task.tracked.find? (·.filePath == change.path) = store.getFile? change.path := by
    rw [htracked]
    exact find_tracked _ (mem_mentionedPaths (by simp [hsplit]))
  have hisRead : change.isRead task.tracked = true := by
    unfold FileChange.isRead
    cases hkind : change.kind with
    | added | modified => rfl
    | deleted | renamed => rw [hkind] at hread; cases hread
  have hstep : MergeStep.ofChange? sources task.tracked task.origin.revision change =
      some (.examine change.path (change.revision.or task.origin.revision)
        (sources.examine (store.getFile? change.path) change.path)) := by
    simp only [MergeStep.ofChange?, hisRead, if_true, hrow]
  intro steps
  unfold LearningTask.steps
  rw [hsplit, List.filterMap_append, List.filterMap_cons_some hstep]

/-- The row of an edited file after the steps of a batch. A rename that comes later takes it away,
if there was a row at the beginning. One that comes before the edit takes it away unless the file
is analyzed. -/
theorem edited_row (honest : store.faults.Honest)
    (h : LearningTask.begin policy store changes origin = .ok task)
    (nodup : (task.changes.map (·.path)).Nodup)
    (hsplit : task.changes = before ++ change :: later)
    (hread : change.kind.needsExtraction = true)
    (hsteps : (task.steps sources).foldlM (MergeState.step now) (.start store) = .ok state) :
    state.store.getFile? change.path =
      if (store.getFile? change.path).isSome = true ∧ MovesFrom change.path later then none
      else (sources.examine (store.getFile? change.path) change.path).row now change.path
        (change.revision.or task.origin.revision)
        (if MovesFrom change.path before then none else store.getFile? change.path) := by
  have hothers : ∀ other ∈ before ++ later, other.path ≠ change.path := by
    rw [hsplit, List.map_append, List.map_cons] at nodup
    obtain ⟨hnew, -⟩ := List.nodup_cons.mp (List.nodup_middle.mp nodup)
    intro other hother heq
    rw [← List.map_append] at hnew
    exact hnew (heq ▸ List.mem_map_of_mem hother)
  have hbefore : ∀ other ∈ before, other.path ≠ change.path :=
    fun other hother => hothers other (List.mem_append_left _ hother)
  have hlater : ∀ other ∈ later, other.path ≠ change.path :=
    fun other hother => hothers other (List.mem_append_right _ hother)
  have hmem : change.path ∈ mentionedPaths task.changes :=
    mem_mentionedPaths (by simp [hsplit])
  have hstart : (MergeState.start store).store.faults.Honest := honest
  rw [steps_edited sources h hsplit hread] at hsteps
  have hrow := MergeState.examined_row hstart hsteps
    (MergeStep.others_fills hbefore) (MergeStep.others_fills hlater)
  simp only [MergeStep.others_empties hbefore, MergeStep.others_empties hlater,
    any_tracked h hmem] at hrow
  rw [hrow]
  -- without a row at the beginning there is none to move
  have hmoved : (if (store.getFile? change.path).isSome = true ∧ MovesFrom change.path before
      then none else store.getFile? change.path) =
        if MovesFrom change.path before then none else store.getFile? change.path := by
    cases store.getFile? change.path <;> simp
  simp only [MergeState.start, hmoved]

/-- The row of a deleted file is gone. -/
theorem deleted_row (honest : store.faults.Honest)
    (nodup : (task.changes.map (·.path)).Nodup) (hmem : change ∈ task.changes)
    (htreatment : change.treatment = .deleted)
    (hsteps : (task.steps sources).foldlM (MergeState.step now) (.start store) = .ok state) :
    state.store.getFile? change.path = none := by
  have hstart : (MergeState.start store).store.faults.Honest := honest
  have hfills : ∀ step ∈ task.steps sources, ¬step.Fills change.path := by
    intro step hstep fills
    obtain ⟨other, hother, hstep⟩ := List.mem_filterMap.mp hstep
    obtain ⟨hpath, hkept⟩ := MergeStep.ofChange?_fills hstep fills
    obtain rfl := List.inj_on_of_nodup_map nodup hother hmem hpath
    exact hkept htreatment
  rw [MergeState.steps_row hstart hsteps hfills, if_pos]
  exact ⟨_, List.mem_filterMap.mpr ⟨change, hmem, MergeStep.ofChange?_deleted htreatment⟩, rfl⟩

end LearningTask

end HouseStyle
