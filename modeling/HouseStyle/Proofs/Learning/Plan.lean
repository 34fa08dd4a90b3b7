import HouseStyle.Proofs.Learning.Batch
import Mathlib.Data.Finset.Card
import Mathlib.Logic.Function.Basic

/-!
# What a batch plans for each path

Of the changes that are kept of a batch it matters what becomes of each path: its file is
read, its rows are deleted, or the rows of another path move to it. This plan is a function
of the path, and adding a change to a batch updates it at the path of the change and at the
sources of the renames that are given up for it.
-/

namespace HouseStyle

inductive Treatment where
  | read
  | deleted
  | rekeyed (source : String)
  deriving DecidableEq, Repr

/-- What a change does with its path. A file that is renamed onto itself is read. -/
def FileChange.treatment (change : FileChange) : Treatment :=
  match change.kind, change.previousPath with
  | .deleted, _ => .deleted
  | .renamed, some source => if source = change.path then .read else .rekeyed source
  | _, _ => .read

/-- A rename comes from another path. -/
def FileChange.Proper (change : FileChange) : Prop :=
  change.kind = .renamed → ∃ source ≠ change.path, change.previousPath = some source

namespace FileChange

variable {change : FileChange}

lemma treatment_of_needsExtraction (h : change.kind.needsExtraction = true) :
    change.treatment = .read := by
  unfold treatment
  cases hkind : change.kind with
  | added | modified => rfl
  | deleted | renamed => rw [hkind] at h; cases h

lemma renamed_of_rekeyed {source : String} (h : change.treatment = .rekeyed source) :
    change.kind = .renamed ∧ change.previousPath = some source ∧ source ≠ change.path := by
  unfold treatment at h
  split at h
  · cases h
  · next own hkind hown =>
    split at h
    · cases h
    · next hne =>
      obtain rfl := Treatment.rekeyed.inj h
      exact ⟨hkind, hown, hne⟩
  · cases h

lemma Proper.needsExtraction_iff (proper : change.Proper) :
    change.kind.needsExtraction = true ↔ change.treatment = .read := by
  refine ⟨treatment_of_needsExtraction, fun h => ?_⟩
  unfold treatment at h
  cases hkind : change.kind with
  | added | modified => rfl
  | deleted => simp [hkind] at h
  | renamed =>
    obtain ⟨source, hne, hsource⟩ := proper hkind
    simp [hkind, hsource, hne] at h

lemma Proper.rekeyed_iff (proper : change.Proper) {source : String} :
    change.treatment = .rekeyed source ↔
      change.kind = .renamed ∧ change.previousPath = some source := by
  constructor
  · intro h
    obtain ⟨hkind, hsource, -⟩ := renamed_of_rekeyed h
    exact ⟨hkind, hsource⟩
  · rintro ⟨hkind, hsource⟩
    obtain ⟨own, hne, hown⟩ := proper hkind
    obtain rfl := Option.some.inj (hown.symm.trans hsource)
    simp [treatment, hkind, hown, hne]

end FileChange

/-! ## Plans -/

/-- What is to be done with each path. Most are left alone. -/
abbrev Plan := String → Option Treatment

namespace Plan

/-- Decide on a path. -/
def set (plan : Plan) (path : String) (treatment : Treatment) : Plan :=
  Function.update plan path (some treatment)

/-- A path that is about to be decided on anew gives the source of its rename up. -/
def release (plan : Plan) (path : String) : Plan :=
  match plan path with
  | some (.rekeyed source) => plan.set source .deleted
  | _ => plan

/-- Add a change. -/
def add (plan : Plan) (path : String) (treatment : Treatment) : Plan :=
  match treatment with
  | .rekeyed source =>
    if plan.release path source = some .read then
      ((plan.release path).set source .deleted).set path .read
    else (plan.release path).set path (.rekeyed source)
  | .read => (plan.release path).set path .read
  | .deleted => (plan.release path).set path .deleted

variable {plan : Plan} {path other source : String} {treatment : Treatment}

lemma set_same : plan.set path treatment path = some treatment := Function.update_self ..

lemma set_other (h : other ≠ path) : plan.set path treatment other = plan other :=
  Function.update_of_ne h ..

lemma set_set (later : Treatment) :
    (plan.set path treatment).set path later = plan.set path later :=
  Function.update_idem ..

/-- What was planned for a path before does not matter. -/
lemma set_congr {before : Plan} (h : ∀ other ≠ path, plan other = before other) :
    plan.set path treatment = before.set path treatment := by
  funext other
  by_cases hother : other = path
  · rw [hother, set_same, set_same]
  · rw [set_other hother, set_other hother, h other hother]

lemma release_rekeyed (h : plan path = some (.rekeyed source)) :
    plan.release path = plan.set source .deleted := by
  rw [release, h]

lemma release_other (h : ∀ source, plan path ≠ some (.rekeyed source)) :
    plan.release path = plan := by
  unfold release
  split
  · next source hsource => exact absurd hsource (h source)
  · rfl

/-- What changes come to that are added one after another. -/
def ofChanges (changes : List FileChange) : Plan :=
  changes.foldl (fun plan change => plan.add change.path change.treatment) fun _ => none

end Plan

namespace Coalesce

variable {kept : List FileChange} {change : FileChange} {path source : String}

/-- The plan of the changes that are kept so far. -/
def planOf (kept : List FileChange) : Plan := fun path => (pending? kept path).map (·.treatment)

lemma pending?_eq_lookup (kept : List FileChange) (path : String) :
    pending? kept path = Table.lookup FileChange.path kept path := rfl

lemma planOf_place (kept : List FileChange) (change : FileChange) :
    planOf (place kept change) = (planOf kept).set change.path change.treatment := by
  funext path
  unfold planOf
  rw [pending?_eq_lookup, place_eq_put, keyed_changes.lookup_put]
  by_cases h : path = change.path
  · subst h
    rw [Plan.set_same, if_pos rfl]
    cases Table.lookup FileChange.path kept change.path <;> rfl
  · rw [Plan.set_other h, if_neg h, pending?_eq_lookup]

/-- Changes that are kept: one for each path, and no rename onto itself. -/
structure Proper (kept : List FileChange) : Prop where
  nodup : (kept.map (·.path)).Nodup
  proper : ∀ change ∈ kept, change.Proper

lemma proper_nil : Proper [] := ⟨List.nodup_nil, by simp⟩

lemma Proper.place (soFar : Proper kept) (proper : change.Proper) :
    Proper (Coalesce.place kept change) where
  nodup := keyed_changes.nodup_put change soFar.nodup
  proper := by
    intro other hother
    rw [place_eq_put] at hother
    unfold Table.put at hother
    split at hother
    · obtain ⟨old, hold, rfl⟩ := List.mem_map.mp hother
      split
      · exact proper
      · exact soFar.proper old hold
    · rcases List.mem_append.mp hother with hold | hnew
      · exact soFar.proper other hold
      · rw [List.mem_singleton.mp hnew]
        exact proper

lemma Proper.of_deleted (path : String) : (FileChange.deleted path).Proper := nofun

lemma Proper.isEdited_iff (soFar : Proper kept) :
    isEdited kept path = true ↔ planOf kept path = some .read := by
  unfold isEdited planOf
  cases hpending : pending? kept path with
  | none => simp
  | some change =>
    have proper := soFar.proper change (List.mem_of_find?_eq_some hpending)
    simpa using proper.needsExtraction_iff

lemma Proper.renameSource?_eq_some (soFar : Proper kept) :
    renameSource? kept path = some source ↔ planOf kept path = some (.rekeyed source) := by
  unfold renameSource? planOf
  cases hpending : pending? kept path with
  | none => simp
  | some change =>
    have proper := soFar.proper change (List.mem_of_find?_eq_some hpending)
    by_cases hkind : change.kind = .renamed <;> simp [Option.filter, proper.rekeyed_iff, hkind]

lemma Proper.releaseSource (soFar : Proper kept) (path : String) :
    Proper (Coalesce.releaseSource kept path) ∧
      planOf (Coalesce.releaseSource kept path) = (planOf kept).release path := by
  unfold Coalesce.releaseSource
  cases hsource : renameSource? kept path with
  | some source =>
    refine ⟨soFar.place (Proper.of_deleted source), ?_⟩
    rw [planOf_place, Plan.release_rekeyed (soFar.renameSource?_eq_some.mp hsource)]
    rfl
  | none =>
    refine ⟨soFar, (Plan.release_other fun source h => ?_).symm⟩
    rw [soFar.renameSource?_eq_some.mpr h] at hsource
    cases hsource

/-- Adding a change to a batch adds it to the plan. -/
theorem Proper.add (soFar : Proper kept) (proper : change.Proper) :
    Proper (Coalesce.add kept change) ∧
      planOf (Coalesce.add kept change) = (planOf kept).add change.path change.treatment := by
  obtain ⟨released, hplan⟩ := soFar.releaseSource change.path
  unfold Coalesce.add
  simp only
  split
  · next source hkind hsource =>
    have htreatment : change.treatment = .rekeyed source :=
      proper.rekeyed_iff.mpr ⟨hkind, hsource⟩
    rw [htreatment, Plan.add, ← hplan]
    by_cases hedited : isEdited (Coalesce.releaseSource kept change.path) source = true
    · rw [if_pos hedited, if_pos (released.isEdited_iff.mp hedited)]
      refine ⟨(released.place (Proper.of_deleted source)).place nofun, ?_⟩
      rw [planOf_place, planOf_place]
      rfl
    · rw [if_neg hedited, if_neg (fun h => hedited (released.isEdited_iff.mpr h))]
      exact ⟨released.place proper, by rw [planOf_place, htreatment]⟩
  · next hnone =>
    refine ⟨released.place proper, ?_⟩
    rw [planOf_place, hplan]
    cases htreatment : change.treatment with
    | read => rfl
    | deleted => rfl
    | rekeyed source =>
      obtain ⟨hkind, hsource⟩ := proper.rekeyed_iff.mp htreatment
      exact absurd hsource (hnone source hkind)

/-! ## The set of changes -/

/-- What is to be done with which paths. Order and revisions do not matter. -/
def marks (changes : List FileChange) : Finset (String × Treatment) :=
  (changes.map fun change => (change.path, change.treatment)).toFinset

lemma planOf_eq_some (nodup : (kept.map (·.path)).Nodup) {treatment : Treatment} :
    planOf kept path = some treatment ↔
      ∃ change ∈ kept, change.path = path ∧ change.treatment = treatment := by
  unfold planOf
  rw [pending?_eq_lookup]
  constructor
  · intro h
    obtain ⟨change, hfound, htreatment⟩ := Option.map_eq_some_iff.mp h
    obtain ⟨hmem, hpath⟩ := Table.mem_of_lookup _ hfound
    exact ⟨change, hmem, hpath, htreatment⟩
  · rintro ⟨change, hmem, rfl, rfl⟩
    rw [Table.lookup_of_mem FileChange.path nodup hmem, Option.map_some]

lemma mem_marks (nodup : (kept.map (·.path)).Nodup) {treatment : Treatment} :
    (path, treatment) ∈ marks kept ↔ planOf kept path = some treatment := by
  rw [planOf_eq_some nodup]
  simp [marks]

/-- Changes for different paths with one plan are the same set. -/
lemma marks_of_planOf {other : List FileChange} (nodup : (kept.map (·.path)).Nodup)
    (nodup' : (other.map (·.path)).Nodup) (h : planOf kept = planOf other) :
    marks kept = marks other := by
  ext ⟨path, treatment⟩
  rw [mem_marks nodup, mem_marks nodup', h]

lemma card_marks (nodup : (kept.map (·.path)).Nodup) : (marks kept).card = kept.length := by
  have distinct : (kept.map fun change => (change.path, change.treatment)).Nodup := by
    refine List.Nodup.of_map Prod.fst ?_
    rw [List.map_map]
    exact nodup
  unfold marks
  rw [List.toFinset_card_of_nodup distinct, List.length_map]

/-! ## Whole batches -/

lemma checkedPath_eq_ok {path key : String} : checkedPath path = .ok key ↔
    Path.problem? (Path.normalize path) = none ∧ Path.normalize path = key := by
  unfold checkedPath
  simp only
  split
  · next problem hproblem => simp [hproblem]
  · next hnone => simp [hnone]

lemma normalize_of_checkedPath {path : String} (h : checkedPath path = .ok path) :
    Path.normalize path = path :=
  (checkedPath_eq_ok.mp h).2

end Coalesce

/-- A change with valid normalized paths. -/
structure FileChange.Clean (change : FileChange) : Prop where
  path : Coalesce.checkedPath change.path = .ok change.path
  source : change.kind = .renamed → ∃ source, change.previousPath = some source ∧
    Coalesce.checkedPath source = .ok source

namespace FileChange

variable {source path : String}

lemma clean_modified (h : Coalesce.checkedPath path = .ok path) : (modified path).Clean :=
  ⟨h, nofun⟩

lemma clean_deleted (h : Coalesce.checkedPath path = .ok path) : (deleted path).Clean :=
  ⟨h, nofun⟩

lemma clean_renamed (hsource : Coalesce.checkedPath source = .ok source)
    (h : Coalesce.checkedPath path = .ok path) : (renamed source path).Clean :=
  ⟨h, fun _ => ⟨source, rfl, hsource⟩⟩

end FileChange

namespace Coalesce

variable {changes kept : List FileChange} {change : FileChange}

/-- A rename that passes the check comes from another path. -/
lemma checked_proper {found : FileChange} (h : checked change = .ok found) : found.Proper := by
  simp only [checked, bind_eq_ok] at h
  obtain ⟨path, -, h⟩ := h
  split at h
  · split at h
    · cases h
    · simp only [bind_eq_ok] at h
      obtain ⟨source, -, h⟩ := h
      split at h
      · obtain rfl := pure_eq_ok.mp h
        intro hrenamed
        cases hrenamed
      · next hne =>
        obtain rfl := pure_eq_ok.mp h
        exact fun _ => ⟨source, hne, rfl⟩
  · next hkind =>
    obtain rfl := pure_eq_ok.mp h
    exact fun hrenamed => absurd hrenamed hkind

/-- Whatever changes there were, those that are kept are for different paths. -/
theorem coalesce_proper {limit : Nat} (h : coalesce limit changes = .ok kept) : Proper kept := by
  simp only [coalesce, bind_eq_ok] at h
  obtain ⟨found, hfold, h⟩ := h
  have hfound : Proper found := by
    clear h
    have soFar := proper_nil
    generalize ([] : List FileChange) = acc at hfold soFar
    induction changes generalizing acc with
    | nil =>
      obtain rfl := pure_eq_ok.mp hfold
      exact soFar
    | cons change changes ih =>
      simp only [List.foldlM_cons, bind_eq_ok, pure_eq_ok] at hfold
      obtain ⟨_, ⟨next, hnext, rfl⟩, hrest⟩ := hfold
      exact ih _ hrest (soFar.add (checked_proper hnext)).1
  split at h
  · rw [throw_bind] at h
    cases h
  · obtain rfl := pure_eq_ok.mp h
    exact hfound

/-- The check finds nothing wrong with a clean change, and leaves its treatment. -/
lemma checked_clean (clean : change.Clean) : ∃ found, checked change = .ok found ∧
    found.Proper ∧ found.path = change.path ∧ found.treatment = change.treatment := by
  unfold checked
  rw [clean.path]
  cases hkind : change.kind with
  | renamed =>
    obtain ⟨source, hsource, hclean⟩ := clean.source hkind
    by_cases hself : source = change.path
    · refine ⟨{ change with kind := .modified, previousPath := none }, ?_, nofun, rfl, ?_⟩
      · subst hself
        simp [bind, Except.bind, pure, Except.pure, hsource, hclean]
      · simp [FileChange.treatment, hkind, hsource, hself]
    · refine ⟨{ change with previousPath := some source }, ?_, ?_, rfl, ?_⟩
      · simp [bind, Except.bind, pure, Except.pure, hsource, hclean, hself, hkind]
      · exact fun _ => ⟨source, hself, rfl⟩
      · simp [FileChange.treatment, hkind, hsource]
  | added | modified | deleted =>
    refine ⟨{ change with previousPath := none }, ?_, ?_, rfl, ?_⟩
    · simp [bind, Except.bind, pure, Except.pure, hkind]
    · simp [FileChange.Proper, hkind]
    · simp [FileChange.treatment, hkind]

/-- Clean changes are added to what is kept, and to its plan, one after another. -/
lemma foldlM_clean (soFar : Proper kept) (clean : ∀ change ∈ changes, change.Clean) :
    ∃ after, changes.foldlM (fun kept change => do return add kept (← checked change)) kept =
        .ok after ∧ Proper after ∧ planOf after =
      changes.foldl (fun plan change => plan.add change.path change.treatment) (planOf kept) := by
  induction changes generalizing kept with
  | nil => exact ⟨kept, rfl, soFar, rfl⟩
  | cons change changes ih =>
    obtain ⟨found, hfound, proper, hpath, htreatment⟩ := checked_clean (clean change (by simp))
    obtain ⟨next, hplan⟩ := soFar.add proper
    obtain ⟨after, hafter, later, hlater⟩ := ih next fun c hc => clean c (by simp [hc])
    refine ⟨after, ?_, later, ?_⟩
    · rw [List.foldlM_cons, hfound]
      exact hafter
    · rw [hlater, hplan, hpath, htreatment, List.foldl_cons]

/-- Clean changes come to their plan, and go through unless there are too many of them. -/
theorem coalesce_clean (limit : Nat) (clean : ∀ change ∈ changes, change.Clean) :
    ∃ kept, Proper kept ∧ planOf kept = Plan.ofChanges changes ∧
      coalesce limit changes =
        if limit < kept.length then
          .error (.invalidBatch ("batch has " ++ toString kept.length ++ " files, limit is " ++
            toString limit))
        else .ok kept := by
  obtain ⟨kept, hfold, proper, hplan⟩ := foldlM_clean proper_nil clean
  refine ⟨kept, proper, hplan, ?_⟩
  unfold coalesce
  rw [hfold]
  simp only [bind, Except.bind]
  split <;> rfl

end Coalesce

end HouseStyle
