import HouseStyle.Proofs.Learning.Plan
import HouseStyle.Proofs.Learning.Progress

/-!
# What is left of files that are gone

A batch records what happened to a tree of files: files came up, were edited or deleted, or
took another path. Every file that was there before and is gone in the end has to be accounted
for in the plan of the batch, by its removal or by a rename of it. A rename from the target of
a pending rename breaks that, because the file in between is never tracked; without such
chains a batch leaves nothing in the store of a path that is no file.
-/

namespace HouseStyle

/-- The files that are there after a change. -/
def FileChange.filesAfter (files : Finset String) (change : FileChange) : Finset String :=
  match change.treatment with
  | .read => insert change.path files
  | .deleted => files.erase change.path
  | .rekeyed source => insert change.path (files.erase source)

namespace Plan

variable {plan : Plan} {known files : Finset String} {path other : String}
  {treatment : Treatment}

/-- A path that has no rows after a plan: there were none, or they are deleted, or they move to
another path, which is not `aside`. -/
def EmptiesBeside (plan : Plan) (known : Finset String) (aside : Option String)
    (path : String) : Prop :=
  plan path = some .deleted ∨ (plan path = none ∧
    (path ∉ known ∨ ∃ target, some target ≠ aside ∧ plan target = some (.rekeyed path)))

/-- No rename that is new or given up comes from the target of a pending rename. -/
def Unchained (plan : Plan) (path : String) (treatment : Treatment) : Prop :=
  ∀ source, plan path = some (.rekeyed source) ∨ treatment = .rekeyed source →
    ∀ origin, plan source ≠ some (.rekeyed origin)

/-- What a path is released from is deleted. -/
lemma EmptiesBeside.release (empties : plan.EmptiesBeside known none other)
    (unchained : plan.Unchained path treatment) :
    (plan.release path).EmptiesBeside known (some path) other := by
  by_cases hrekeyed : ∃ source, plan path = some (.rekeyed source)
  · obtain ⟨source, hsource⟩ := hrekeyed
    rw [release_rekeyed hsource]
    by_cases hother : other = source
    · exact .inl (by rw [hother, set_same])
    rcases empties with hdeleted | ⟨hnone, hrest⟩
    · exact .inl (by rw [set_other hother, hdeleted])
    · refine .inr ⟨by rw [set_other hother, hnone], hrest.imp_right ?_⟩
      rintro ⟨target, -, htarget⟩
      have hne : target ≠ path := by
        rintro rfl
        rw [hsource, Option.some.injEq, Treatment.rekeyed.injEq] at htarget
        exact hother htarget.symm
      have hne' : target ≠ source := by
        rintro rfl
        exact unchained target (.inl hsource) other htarget
      exact ⟨target, by simpa using hne, by rw [set_other hne', htarget]⟩
  · rw [not_exists] at hrekeyed
    rw [release_other hrekeyed]
    refine empties.imp_right (And.imp_right (Or.imp_right ?_))
    rintro ⟨target, -, htarget⟩
    refine ⟨target, ?_, htarget⟩
    rintro ⟨⟩
    exact hrekeyed other htarget

/-- What is planned for the path aside does not matter to the others. -/
lemma EmptiesBeside.set (empties : plan.EmptiesBeside known (some path) other)
    (hne : other ≠ path) (treatment : Treatment) :
    (plan.set path treatment).EmptiesBeside known none other := by
  unfold EmptiesBeside
  rw [set_other hne]
  refine empties.imp_right (And.imp_right (Or.imp_right ?_))
  rintro ⟨target, haside, htarget⟩
  have hne' : target ≠ path := by simpa using haside
  exact ⟨target, by simp, by rw [set_other hne', htarget]⟩

/-- Nor is what is planned for a path to which nothing moves. -/
lemma EmptiesBeside.set_unmoved {aside : Option String} {source : String}
    (empties : plan.EmptiesBeside known aside other) (hne : other ≠ source)
    (unmoved : ∀ origin, plan source ≠ some (.rekeyed origin)) (treatment : Treatment) :
    (plan.set source treatment).EmptiesBeside known aside other := by
  unfold EmptiesBeside
  rw [set_other hne]
  refine empties.imp_right (And.imp_right (Or.imp_right ?_))
  rintro ⟨target, haside, htarget⟩
  have hne' : target ≠ source := by
    rintro rfl
    exact unmoved other htarget
  exact ⟨target, haside, by rw [set_other hne', htarget]⟩

/-- A rename that is there after a release was there before. -/
lemma rekeyed_of_release {origin : String}
    (h : plan.release path other = some (.rekeyed origin)) :
    plan other = some (.rekeyed origin) := by
  by_cases hrekeyed : ∃ source, plan path = some (.rekeyed source)
  · obtain ⟨source, hsource⟩ := hrekeyed
    rw [release_rekeyed hsource] at h
    by_cases hother : other = source
    · rw [hother, set_same] at h
      cases h
    · rwa [set_other hother] at h
  · rwa [release_other (not_exists.mp hrekeyed)] at h

/-- A plan accounts for every file that is gone. -/
def Accounts (plan : Plan) (known files : Finset String) : Prop :=
  ∀ path ∉ files, plan.EmptiesBeside known none path

lemma accounts_none (known : Finset String) : Accounts (fun _ => none) known known :=
  fun _ hgone => .inr ⟨rfl, .inl hgone⟩

/-- A rename empties its source, and leaves the paths empty that were. -/
lemma EmptiesBeside.add_rekeyed {source : String} (hne : source ≠ path)
    (unchained : plan.Unchained path (.rekeyed source)) (hpath : other ≠ path)
    (empties : other ≠ source → plan.EmptiesBeside known none other) :
    (plan.add path (.rekeyed source)).EmptiesBeside known none other := by
  have unmoved : ∀ origin, plan.release path source ≠ some (.rekeyed origin) :=
    fun origin h => unchained source (.inr rfl) origin (rekeyed_of_release h)
  unfold Plan.add
  by_cases hother : other = source
  · subst hother
    simp only
    split
    · exact .inl (by rw [set_other hne, set_same])
    · next hread =>
      cases hplan : plan.release path other with
      | none => exact .inr ⟨by rw [set_other hne, hplan], .inr ⟨path, by simp, set_same⟩⟩
      | some treatment =>
        cases treatment with
        | deleted => exact .inl (by rw [set_other hne, hplan])
        | read => exact absurd hplan hread
        | rekeyed origin => exact absurd hplan (unmoved origin)
  · have released := (empties hother).release unchained
    simp only
    split
    · exact (released.set_unmoved hother unmoved _).set hpath _
    · exact released.set hpath _

/-- An unchained change leaves every file accounted for. -/
theorem Accounts.add {change : FileChange} (accounts : plan.Accounts known files)
    (unchained : plan.Unchained change.path change.treatment) :
    (plan.add change.path change.treatment).Accounts known (change.filesAfter files) := by
  intro path hgone
  unfold FileChange.filesAfter at hgone
  cases htreatment : change.treatment with
  | read =>
    rw [htreatment, Finset.mem_insert, not_or] at hgone
    exact ((accounts path hgone.2).release unchained).set hgone.1 _
  | deleted =>
    rw [htreatment, Finset.mem_erase, not_and] at hgone
    by_cases hpath : path = change.path
    · exact .inl (by rw [hpath]; exact set_same)
    · exact ((accounts path (hgone hpath)).release unchained).set hpath _
  | rekeyed source =>
    rw [htreatment, Finset.mem_insert, Finset.mem_erase, not_or, not_and] at hgone
    rw [htreatment] at unchained
    obtain ⟨-, -, hne⟩ := FileChange.renamed_of_rekeyed htreatment
    exact EmptiesBeside.add_rekeyed hne unchained hgone.1 fun hother =>
      accounts path (hgone.2 hother)

/-- Every one of the changes is unchained in the plan that it meets. -/
def UnchainedAll : Plan → List FileChange → Prop
  | _, [] => True
  | plan, change :: changes => plan.Unchained change.path change.treatment ∧
    UnchainedAll (plan.add change.path change.treatment) changes

theorem Accounts.addAll {changes : List FileChange} (accounts : plan.Accounts known files)
    (unchained : plan.UnchainedAll changes) :
    (changes.foldl (fun plan change => plan.add change.path change.treatment) plan).Accounts known
      (changes.foldl FileChange.filesAfter files) := by
  induction changes generalizing plan files with
  | nil => exact accounts
  | cons change changes ih => exact ih (accounts.add unchained.1) unchained.2

end Plan

/-! ## Rows under a path -/

namespace MergeStep

/-- Whether a step may put rows under a path. -/
def Fills (path : String) : MergeStep → Prop
  | examine target .. => target = path
  | delete _ => False
  | rename _ target _ => target = path

/-- Whether a step takes all rows away from under a path. -/
def Empties (path : String) : MergeStep → Prop
  | examine .. => False
  | delete target => target = path
  | rename source target _ => source = path ∧ target ≠ path

end MergeStep

namespace MergeState

variable {state after : MergeState} {now : Int} {path : String}

lemma examine_bare (honest : state.store.faults.Honest) {target : String}
    {revision : Option String} {analysis : Analysis}
    (h : state.examine now target revision analysis = .ok after) (hne : target ≠ path)
    (bare : state.store.Bare path) : after.store.Bare path := by
  obtain ⟨⟨_, hstore⟩, -⟩ := examine_ok honest h
  refine ⟨?_, ?_, ?_⟩
  · rw [getFile?_examine honest h, if_neg (Ne.symm hne)]
    exact bare.file
  · intro row hrow
    rw [hstore] at hrow
    rcases List.mem_append.mp hrow with hold | hnew
    · exact bare.concepts row (List.mem_filter.mp hold).1
    · simp only [List.map_map, List.mem_map] at hnew
      obtain ⟨concept, -, rfl⟩ := hnew
      exact hne
  · intro row hrow
    rw [hstore] at hrow
    rcases List.mem_append.mp hrow with hold | hnew
    · exact bare.evidence row (List.mem_filter.mp hold).1
    · obtain ⟨o, -, rfl⟩ := List.mem_map.mp hnew
      exact hne

lemma delete_bare (honest : state.store.faults.Honest) {target : String}
    (h : state.delete target = .ok after) (hbare : state.store.Bare path ∨ target = path) :
    after.store.Bare path := by
  obtain ⟨⟨_, hstore⟩, -⟩ := delete_ok honest h
  refine ⟨?_, ?_, ?_⟩
  · rw [getFile?_delete honest h]
    split
    · rfl
    · next hne => exact (hbare.resolve_right (Ne.symm hne)).file
  · intro row hrow hpath
    rw [hstore] at hrow
    obtain ⟨hmem, hother⟩ := List.mem_filter.mp hrow
    rcases hbare with bare | rfl
    · exact bare.concepts row hmem hpath
    · simp [hpath] at hother
  · intro row hrow hpath
    rw [hstore] at hrow
    obtain ⟨hmem, hother⟩ := List.mem_filter.mp hrow
    rcases hbare with bare | rfl
    · exact bare.evidence row hmem hpath
    · simp [hpath] at hother

lemma rename_bare (honest : state.store.faults.Honest) {source target : String}
    {revision : Option String} (h : state.rename source target revision = .ok after)
    (hne : target ≠ path) (hbare : state.store.Bare path ∨ source = path) :
    after.store.Bare path := by
  obtain ⟨⟨_, hstore⟩, -⟩ := rename_ok honest h
  refine ⟨?_, ?_, ?_⟩
  · rw [getFile?_rename honest h, lookup_renamedFiles, Option.map_eq_none_iff]
    by_cases hself : source = target
    · subst hself
      rw [movedFiles_self, Table.lookup_filter_ne, if_neg (Ne.symm hne)]
      exact (hbare.resolve_right hne).file
    · rw [lookup_movedFiles _ hself, if_neg (Ne.symm hne)]
      split
      · rfl
      · next hsource => exact (hbare.resolve_right (Ne.symm hsource)).file
  · intro row hrow
    rw [hstore] at hrow
    obtain ⟨old, hold, rfl⟩ := List.mem_map.mp hrow
    split
    · exact hne
    · next hsource =>
      rcases hbare with bare | rfl
      · exact bare.concepts old (List.mem_filter.mp hold).1
      · simpa using hsource
  · intro row hrow
    rw [hstore] at hrow
    obtain ⟨old, hold, rfl⟩ := List.mem_map.mp hrow
    split
    · exact hne
    · next hsource =>
      rcases hbare with bare | rfl
      · exact bare.evidence old (List.mem_filter.mp hold).1
      · simpa using hsource

lemma step_bare (honest : state.store.faults.Honest) {step : MergeStep}
    (h : MergeState.step now state step = .ok after) (hfills : ¬step.Fills path)
    (hbare : state.store.Bare path ∨ step.Empties path) : after.store.Bare path := by
  cases step with
  | examine target revision reading =>
    have bare := hbare.resolve_right id
    cases reading with
    | analyzed analysis => exact examine_bare honest h hfills bare
    | unchanged => cases h; exact bare
    | failed => cases h; exact bare
  | delete target => exact delete_bare honest h hbare
  | rename source target revision => exact rename_bare honest h hfills (hbare.imp_right And.left)

/-- Steps of which none fills a path leave it without rows, if it had none or one of them takes
them away. -/
theorem steps_bare {steps : List MergeStep} (honest : state.store.faults.Honest)
    (h : steps.foldlM (MergeState.step now) state = .ok after)
    (hfills : ∀ step ∈ steps, ¬step.Fills path)
    (hbare : state.store.Bare path ∨ ∃ step ∈ steps, step.Empties path) :
    after.store.Bare path := by
  induction steps generalizing state with
  | nil =>
    cases h
    exact hbare.resolve_right (by simp)
  | cons step steps ih =>
    rw [List.foldlM_cons, bind_eq_ok] at h
    obtain ⟨mid, hstep, hrest⟩ := h
    rw [List.forall_mem_cons] at hfills
    refine ih ((step_effect honest hstep).honest honest) hrest hfills.2 ?_
    rcases hbare with bare | ⟨emptying, hmem, hempties⟩
    · exact .inl (step_bare honest hstep hfills.1 (.inl bare))
    · rcases List.mem_cons.mp hmem with rfl | hmem
      · exact .inl (step_bare honest hstep hfills.1 (.inr hempties))
      · exact .inr ⟨emptying, hmem, hempties⟩

end MergeState

/-! ## Batches -/

lemma FileChange.treatment_eq_deleted {change : FileChange} :
    change.treatment = .deleted ↔ change.kind = .deleted := by
  unfold treatment
  cases hkind : change.kind with
  | deleted => simp
  | added | modified => simp
  | renamed =>
    cases change.previousPath with
    | none => simp
    | some source =>
      simp only
      split <;> simp

namespace MergeStep

variable {sources : Sources} {tracked : List TrackedFile} {revision : Option String}
  {change : FileChange} {step : MergeStep} {path : String}

/-- A step fills no path but that of its change, and a deletion fills none. -/
lemma ofChange?_fills (h : ofChange? sources tracked revision change = some step)
    (fills : step.Fills path) : change.path = path ∧ change.treatment ≠ .deleted := by
  rw [Ne, FileChange.treatment_eq_deleted]
  simp only [ofChange?] at h
  split at h
  · next hread =>
    obtain rfl := Option.some.inj h
    refine ⟨fills, fun hkind => ?_⟩
    simp [FileChange.isRead, hkind] at hread
  · split at h
    · next hkind =>
      obtain ⟨source, -, rfl⟩ := Option.map_eq_some_iff.mp h
      exact ⟨fills, by simp [hkind]⟩
    · obtain rfl := Option.some.inj h
      exact absurd fills id

lemma ofChange?_deleted (h : change.treatment = .deleted) :
    ofChange? sources tracked revision change = some (delete change.path) := by
  rw [FileChange.treatment_eq_deleted] at h
  simp [ofChange?, FileChange.isRead, h]

/-- A rename of a tracked file moves its rows. -/
lemma ofChange?_rekeyed {source : String} (h : change.treatment = .rekeyed source)
    (htracked : tracked.any (·.filePath == source) = true) :
    ∃ revision', ofChange? sources tracked revision change =
      some (rename source change.path revision') := by
  obtain ⟨hkind, hsource, -⟩ := FileChange.renamed_of_rekeyed h
  refine ⟨change.revision.or revision, ?_⟩
  simp [ofChange?, FileChange.isRead, hkind, hsource, htracked]

end MergeStep

namespace LearningTask

variable {policy : LearningPolicy} {store : PatternStore} {changes : List FileChange}
  {origin : Origin} {task : LearningTask} {known : Finset String} {path : String}

/-- The rows that a batch has read tell which sources of its renames are tracked. -/
lemma any_tracked (h : LearningTask.begin policy store changes origin = .ok task)
    (hmem : path ∈ mentionedPaths task.changes) :
    task.tracked.any (·.filePath == path) = (store.getFile? path).isSome := by
  obtain ⟨-, -, -, htracked⟩ := begin_ok h
  have hfind : _ = store.getFile? path := find_tracked (mentionedPaths task.changes) hmem
  rw [← htracked] at hfind
  rw [← hfind, List.isSome_find?]

end LearningTask

/-- The tracked paths are those of the files that are there. -/
structure InSync (store : PatternStore) (files : Finset String) : Prop where
  tracked : MergeState.Tracked store
  files : ∀ path, (store.getFile? path).isSome = true ↔ path ∈ files

/-- A path that the plan of a task empties has no rows after its steps. -/
lemma LearningTask.steps_empty {policy : LearningPolicy} {store : PatternStore}
    {changes : List FileChange} {origin : Origin} {task : LearningTask} {known : Finset String}
    {path : String} (sources : Sources) {now : Int} {after : MergeState}
    (h : LearningTask.begin policy store changes origin = .ok task)
    (inSync : InSync store known) (proper : Coalesce.Proper task.changes)
    (empties : (Coalesce.planOf task.changes).EmptiesBeside known none path)
    (honest : store.faults.Honest)
    (hsteps : (task.steps sources).foldlM (MergeState.step now) (.start store) = .ok after) :
    after.store.Bare path := by
  have hstart : (MergeState.start store).store.faults.Honest := honest
  have mem_steps : ∀ step, step ∈ task.steps sources ↔ ∃ change ∈ task.changes,
      MergeStep.ofChange? sources task.tracked task.origin.revision change = some step :=
    fun step => List.mem_filterMap
  refine MergeState.steps_bare hstart hsteps ?fills ?bare
  case fills =>
    intro step hstep fills
    obtain ⟨change, hchange, hstep⟩ := (mem_steps step).mp hstep
    obtain ⟨hpath, hkept⟩ := MergeStep.ofChange?_fills hstep fills
    have hplan := (Coalesce.planOf_eq_some proper.nodup).mpr ⟨change, hchange, hpath, rfl⟩
    rcases empties with hdeleted | ⟨hnone, -⟩
    · exact hkept (Option.some.inj (hplan.symm.trans hdeleted))
    · rw [hnone] at hplan
      cases hplan
  case bare =>
    rcases empties with hdeleted | ⟨-, habsent | ⟨target, -, hmoved⟩⟩
    · obtain ⟨change, hchange, rfl, htreatment⟩ :=
        (Coalesce.planOf_eq_some proper.nodup).mp hdeleted
      exact .inr ⟨_, (mem_steps _).mpr ⟨change, hchange, MergeStep.ofChange?_deleted htreatment⟩,
        rfl⟩
    · left
      apply inSync.tracked.bare
      rw [← Option.not_isSome_iff_eq_none, inSync.files]
      exact habsent
    · obtain ⟨change, hchange, rfl, htreatment⟩ :=
        (Coalesce.planOf_eq_some proper.nodup).mp hmoved
      obtain ⟨-, hsource, hne⟩ := FileChange.renamed_of_rekeyed htreatment
      cases hfile : store.getFile? path with
      | none => exact .inl (inSync.tracked.bare hfile)
      | some file =>
        have hmem : path ∈ mentionedPaths task.changes :=
          List.mem_flatMap.mpr ⟨change, hchange, by simp [hsource]⟩
        have htracked := any_tracked h hmem
        rw [hfile] at htracked
        obtain ⟨revision, hstep⟩ := MergeStep.ofChange?_rekeyed htreatment htracked
        exact .inr ⟨_, (mem_steps _).mpr ⟨change, hchange, hstep⟩, rfl, Ne.symm hne⟩

/-- After a batch of unchained changes that was learned, a path without a file has no rows. -/
theorem learn_bare {policy : LearningPolicy} {sources : Sources} {projectId : String} {now : Int}
    {store : PatternStore} {changes : List FileChange} {origin : Origin} {delta : LearningDelta}
    {files : Finset String} (honest : store.faults.Honest) (inSync : InSync store files)
    (clean : ∀ change ∈ changes, change.Clean)
    (unchained : Plan.UnchainedAll (fun _ => none) changes)
    (h : (learn policy sources projectId now store changes origin).result = .ok delta) :
    ∀ path ∉ changes.foldl FileChange.filesAfter files,
      (learn policy sources projectId now store changes origin).store.Bare path := by
  intro path hgone
  obtain ⟨task, state, after, hbegin, hsteps, hstore, hconcepts, hevidence, hfiles⟩ :=
    LearnerCall.learn_steps honest h
  obtain ⟨hcoalesce, -⟩ := LearningTask.begin_ok hbegin
  obtain ⟨kept, proper, hplan, hkept⟩ := Coalesce.coalesce_clean policy.batchFiles clean
  obtain rfl : kept = task.changes := by
    rw [hkept] at hcoalesce
    split at hcoalesce
    · cases hcoalesce
    · exact Except.ok.inj hcoalesce
  have accounts := (Plan.accounts_none files).addAll unchained
  have empties : (Coalesce.planOf task.changes).EmptiesBeside files none path := by
    rw [hplan]
    exact accounts path hgone
  have bare := LearningTask.steps_empty sources hbegin inSync proper empties honest hsteps
  rw [hstore]
  exact bare.congr hconcepts hevidence hfiles

namespace LearnerCall

/-- Learning a batch of unchained changes goes through and leaves no rows of a path without a
file, in a store that was in sync with the files before. -/
theorem perform_bare (projectId : String) {call : LearnerCall} {store : PatternStore}
    {sources : Sources} {changes : List FileChange} {origin : Origin} {files : Finset String}
    (hrequest : call.request = .learn sources changes origin) (proper : call.Proper)
    (healthy : store.Healthy) (room : store.version + 1 < Word.half) (inSync : InSync store files)
    (clean : ∀ change ∈ changes, change.Clean)
    (unchained : Plan.UnchainedAll (fun _ => none) changes) :
    ∃ delta, (call.perform projectId store).result = .ok delta ∧
      ∀ path ∉ changes.foldl FileChange.filesAfter files,
        (call.perform projectId store).store.Bare path := by
  obtain ⟨delta, hresult⟩ := perform_succeeds projectId proper healthy room
  refine ⟨delta, hresult, ?_⟩
  have moved : InSync (store.under call.faults) files :=
    ⟨inSync.tracked.congr rfl rfl rfl, inSync.files⟩
  unfold perform at hresult ⊢
  rw [hrequest] at hresult ⊢
  exact learn_bare call.honest moved clean unchained hresult

end LearnerCall

/-! A store in sync with one empty file, which is renamed. -/

def sampleReading : Sources := ⟨fun _ => .ok "", fun _ _ => .ok ⟨[], false⟩⟩

def sampleBatch (changes : List FileChange) : LearnerCall :=
  LearnerRun.sampleCall (.learn sampleReading changes .manual)

def sampleTracked : PatternStore := ((sampleBatch [.added "a.ts"]).perform "sample" .empty).store

lemma sampleTracked_files : sampleTracked.files.map (·.filePath) = ["a.ts"] := by
  decide +kernel

lemma sampleTracked_inSync : InSync sampleTracked {"a.ts"} where
  tracked := LearnerCall.perform_tracked _ _ ⟨by simp [PatternStore.empty],
    by simp [PatternStore.empty]⟩
  files := by
    intro path
    rw [PatternStore.getFile?, List.find?_isSome, Finset.mem_singleton]
    have hmem : path ∈ sampleTracked.files.map (·.filePath) ↔ path = "a.ts" := by
      rw [sampleTracked_files, List.mem_singleton]
    rw [← hmem]
    simp

lemma sampleBatch_proper {changes : List FileChange} (h : (coalesce 10 changes).isOk = true) :
    (sampleBatch changes).Proper where
  sound := rfl
  accepted := by
    refine ⟨exists_ok h, rfl, ?_⟩
    intro path content extraction hextraction c hc
    obtain rfl := Except.ok.inj hextraction
    cases hc
  finite := LearnerRun.samplePolicy_finite

lemma sampleTracked_healthy :
    sampleTracked.Healthy ∧ sampleTracked.version + 1 < Word.half := by
  have room : PatternStore.empty.version + 1 < Word.half := by decide
  obtain ⟨healthy, hversion⟩ := (sampleBatch [.added "a.ts"]).perform_healthy "sample"
    PatternStore.healthy_empty room
  refine ⟨healthy, ?_⟩
  have : sampleTracked.version ≤ 0 + 1 := hversion
  unfold Word.half
  omega

def sampleEditedRename : List FileChange := [.renamed "a.ts" "b.ts", .modified "b.ts"]

lemma sampleEditedRename_clean : ∀ change ∈ sampleEditedRename, change.Clean := by
  intro change hchange
  rcases List.mem_pair.mp hchange with rfl | rfl
  · exact FileChange.clean_renamed (by decide) (by decide)
  · exact FileChange.clean_modified (by decide)

lemma sampleEditedRename_unchained : Plan.UnchainedAll (fun _ => none) sampleEditedRename := by
  have hfirst : Plan.add (fun _ => none) "b.ts" (.rekeyed "a.ts") "b.ts" =
    some (.rekeyed "a.ts") := by decide
  have hsource : Plan.add (fun _ => none) "b.ts" (.rekeyed "a.ts") "a.ts" = none := by decide
  refine ⟨fun source _ origin => nofun, ?_, trivial⟩
  rintro source (h | h) origin
  · obtain rfl : "a.ts" = source := by simpa using hfirst.symm.trans h
    intro hchain
    cases hsource.symm.trans hchain
  · cases h

theorem sampleEditedRename_bare :
    ∃ delta, ((sampleBatch sampleEditedRename).perform "sample" sampleTracked).result = .ok delta ∧
      ∀ path ∉ sampleEditedRename.foldl FileChange.filesAfter {"a.ts"},
        ((sampleBatch sampleEditedRename).perform "sample" sampleTracked).store.Bare path :=
  LearnerCall.perform_bare "sample" rfl (sampleBatch_proper (by decide)) sampleTracked_healthy.1
    sampleTracked_healthy.2 sampleTracked_inSync sampleEditedRename_clean
    sampleEditedRename_unchained

/-! The file is renamed twice in one batch: the rows of the path in between stay. -/

def sampleChain : List FileChange := [.renamed "a.ts" "b.ts", .renamed "b.ts" "c.ts"]

theorem sampleChain_rows : InSync sampleTracked {"a.ts"} ∧
    sampleChain.foldl FileChange.filesAfter {"a.ts"} = {"c.ts"} ∧
    ((sampleBatch sampleChain).perform "sample" sampleTracked).result.isOk = true ∧
    ¬((sampleBatch sampleChain).perform "sample" sampleTracked).store.Bare "b.ts" := by
  refine ⟨sampleTracked_inSync, by decide, by decide +kernel, fun bare => ?_⟩
  have hrow : (((sampleBatch sampleChain).perform "sample" sampleTracked).store.getFile?
      "b.ts").isSome = true := by decide +kernel
  rw [bare.file] at hrow
  cases hrow

end HouseStyle
