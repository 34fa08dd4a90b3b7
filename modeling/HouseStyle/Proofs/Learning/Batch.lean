import HouseStyle.Learning.Learner
import HouseStyle.Proofs.Store.Lookup

/-!
# What a batch of edits comes to

A batch without renames is coalesced to one change for each path it mentions, the last one,
and becomes one step for each of them: a file that was deleted is forgotten, and any other is
examined, with the row that the store has of it at the beginning.
-/

namespace HouseStyle

/-- The kind of the last change of a batch that mentions a path. -/
def lastMention? (changes : List FileChange) (path : String) : Option ChangeKind :=
  ((changes.filter fun change => Path.normalize change.path == path).getLast?).map (·.kind)

lemma lastMention?_concat (changes : List FileChange) (change : FileChange) (path : String) :
    lastMention? (changes ++ [change]) path =
      if path = Path.normalize change.path then some change.kind
      else lastMention? changes path := by
  unfold lastMention?
  by_cases h : path = Path.normalize change.path
  · simp [h]
  · have h' : (Path.normalize change.path == path) = false :=
      beq_eq_false_iff_ne.mpr (Ne.symm h)
    simp [h, h']

namespace Coalesce

/-- Batches without renames. -/
def Edits (changes : List FileChange) : Prop := ∀ change ∈ changes, change.kind ≠ .renamed

/-- What has been kept of the changes so far. -/
structure Kept (done kept : List FileChange) : Prop where
  nodup : (kept.map (·.path)).Nodup
  edits : Edits kept
  last : ∀ path, (Table.lookup FileChange.path kept path).map (·.kind) = lastMention? done path

lemma checked_edit {change kept : FileChange} (edit : change.kind ≠ .renamed)
    (h : checked change = .ok kept) :
    kept.path = Path.normalize change.path ∧ kept.kind = change.kind := by
  simp only [checked, bind_eq_ok] at h
  obtain ⟨path, hpath, h⟩ := h
  rw [if_neg edit] at h
  obtain rfl := pure_eq_ok.mp h
  refine ⟨?_, rfl⟩
  unfold checkedPath at hpath
  simp only at hpath
  split at hpath
  · cases hpath
  · exact (Except.ok.inj hpath).symm

lemma place_eq_put (kept : List FileChange) (change : FileChange) :
    place kept change = Table.put kept (fun a b => b.path == a.path) (fun _ new => new) change :=
  rfl

lemma keyed_changes : Table.Keyed FileChange.path (fun a b => b.path == a.path)
    (fun _ new => new) :=
  ⟨fun _ _ => Bool.beq_comm, fun _ _ h => h.symm⟩

lemma add_edit {kept : List FileChange} {change : FileChange} (edits : Edits kept)
    (edit : change.kind ≠ .renamed) : add kept change = place kept change := by
  have hrelease : releaseSource kept change.path = kept := by
    unfold releaseSource renameSource? pending?
    cases hfound : kept.find? (·.path == change.path) with
    | none => rfl
    | some other => simp [Option.filter, edits other (List.mem_of_find?_eq_some hfound)]
  unfold add
  rw [hrelease]
  split
  · next hkind _ => exact absurd hkind edit
  · rfl

lemma Kept.place {done kept : List FileChange} {change found : FileChange}
    (soFar : Kept done kept) (edit : change.kind ≠ .renamed)
    (hpath : found.path = Path.normalize change.path) (hkind : found.kind = change.kind) :
    Kept (done ++ [change]) (Coalesce.place kept found) where
  nodup := keyed_changes.nodup_put found soFar.nodup
  edits := by
    intro other hother
    rw [place_eq_put] at hother
    unfold Table.put at hother
    split at hother
    · obtain ⟨old, hold, rfl⟩ := List.mem_map.mp hother
      split
      · rw [hkind]
        exact edit
      · exact soFar.edits old hold
    · rcases List.mem_append.mp hother with hold | hnew
      · exact soFar.edits other hold
      · rw [List.mem_singleton.mp hnew, hkind]
        exact edit
  last := by
    intro path
    rw [place_eq_put, keyed_changes.lookup_put, lastMention?_concat, ← hpath]
    split
    · cases Table.lookup FileChange.path kept path <;> simp [hkind]
    · exact soFar.last path

/-- Every path that is mentioned is kept once, with its last mention. -/
theorem coalesce_edits {limit : Nat} {changes kept : List FileChange} (edits : Edits changes)
    (h : coalesce limit changes = .ok kept) : Kept changes kept := by
  have fold : ∀ (rest done acc kept : List FileChange), Edits rest → Kept done acc →
      rest.foldlM (fun kept change => do return add kept (← checked change)) acc = .ok kept →
      Kept (done ++ rest) kept := by
    intro rest
    induction rest with
    | nil =>
      intro done acc kept _ soFar h
      obtain rfl := pure_eq_ok.mp h
      rwa [List.append_nil]
    | cons change rest ih =>
      intro done acc kept hedits soFar h
      simp only [List.foldlM_cons, bind_eq_ok, pure_eq_ok] at h
      obtain ⟨_, ⟨found, hfound, rfl⟩, hrest⟩ := h
      have edit := hedits change (by simp)
      obtain ⟨hpath, hkind⟩ := checked_edit edit hfound
      rw [add_edit soFar.edits (by rw [hkind]; exact edit)] at hrest
      have next := soFar.place edit hpath hkind
      rw [List.append_cons]
      exact ih _ _ kept (fun c hc => hedits c (by simp [hc])) next hrest
  have none : Kept [] [] := ⟨List.nodup_nil, by simp [Edits], fun _ => rfl⟩
  simp only [coalesce, bind_eq_ok] at h
  obtain ⟨found, hfold, h⟩ := h
  split at h
  · rw [throw_bind] at h
    cases h
  · obtain rfl := pure_eq_ok.mp h
    simpa using fold changes [] [] found edits none hfold

end Coalesce

namespace LearningTask

variable {policy : LearningPolicy} {store : PatternStore} {changes : List FileChange}
  {origin : Origin} {task : LearningTask}

lemma begin_ok (h : LearningTask.begin policy store changes origin = .ok task) :
    coalesce policy.batchFiles changes = .ok task.changes ∧ task.origin = origin ∧
      task.version = readWord store.version ∧
      task.tracked = (mentionedPaths task.changes).filterMap store.getFile? := by
  simp only [LearningTask.begin, bind_eq_ok] at h
  obtain ⟨kept, hkept, h⟩ := h
  split at h
  · rw [throw_bind] at h
    cases h
  · obtain rfl := pure_eq_ok.mp h
    exact ⟨hkept, rfl, rfl, rfl⟩

lemma changes_of_begin {kept : List FileChange}
    (h : LearningTask.begin policy store changes origin = .ok task)
    (hkept : coalesce policy.batchFiles changes = .ok kept) : kept = task.changes :=
  Except.ok.inj (hkept.symm.trans (begin_ok h).1)

lemma mem_mentionedPaths {change : FileChange} (h : change ∈ changes) :
    change.path ∈ mentionedPaths changes :=
  List.mem_flatMap.mpr ⟨change, h, by simp⟩

/-- A batch that is within the limits and was not called off is begun. -/
lemma exists_begin (store : PatternStore) {kept : List FileChange}
    (h : coalesce policy.batchFiles changes = .ok kept) (running : origin.isCancelled = false) :
    ∃ task, LearningTask.begin policy store changes origin = .ok task := by
  unfold LearningTask.begin
  rw [h, running]
  exact ⟨_, rfl⟩

/-- The rows that were read for a batch are those of the paths that it mentions. -/
lemma find_tracked (paths : List String) {path : String} (h : path ∈ paths) :
    (paths.filterMap store.getFile?).find? (·.filePath == path) = store.getFile? path := by
  induction paths with
  | nil => cases h
  | cons first paths ih =>
    by_cases hfirst : first = path
    · subst hfirst
      cases hrow : store.getFile? first with
      | some row =>
        have hpath : row.filePath = first := (Table.mem_of_lookup _ hrow).2
        rw [List.filterMap_cons_some hrow, List.find?_cons_of_pos (by simp [hpath])]
      | none =>
        rw [List.find?_eq_none]
        intro row hrow' heq
        obtain ⟨other, -, hother⟩ := List.mem_filterMap.mp hrow'
        have hpath : row.filePath = other := (Table.mem_of_lookup _ hother).2
        rw [beq_iff_eq] at heq
        rw [← hpath, heq, hrow] at hother
        cases hother
    · have hmem : path ∈ paths := (List.mem_cons.mp h).resolve_left (Ne.symm hfirst)
      rw [List.filterMap_cons]
      cases hrow : store.getFile? first with
      | some row =>
        have hpath : row.filePath = first := (Table.mem_of_lookup _ hrow).2
        simp only
        rw [List.find?_cons_of_neg (by simp [hpath, hfirst]), ih hmem]
      | none => exact ih hmem

end LearningTask

namespace MergeStep

/-- The step for a change that is no rename, on a store. -/
def ofEdit (sources : Sources) (store : PatternStore) (revision : Option String)
    (change : FileChange) : MergeStep :=
  if change.kind.needsExtraction then
    .examine change.path (change.revision.or revision)
      (sources.examine (store.getFile? change.path) change.path)
  else .delete change.path

end MergeStep

/-- A batch of edits becomes one step for each change that is kept. -/
theorem LearningTask.steps_edits {policy : LearningPolicy} {store : PatternStore}
    {changes : List FileChange} {origin : Origin} {task : LearningTask} (sources : Sources)
    (h : LearningTask.begin policy store changes origin = .ok task)
    (edits : Coalesce.Edits task.changes) :
    task.steps sources = task.changes.map (MergeStep.ofEdit sources store origin.revision) := by
  obtain ⟨-, horigin, -, htracked⟩ := begin_ok h
  unfold LearningTask.steps
  rw [horigin, htracked, ← List.filterMap_eq_map]
  apply List.filterMap_congr
  intro change hchange
  have edit := edits change hchange
  unfold MergeStep.ofChange? MergeStep.ofEdit FileChange.isRead
  rw [find_tracked _ (mem_mentionedPaths hchange)]
  cases hkind : change.kind with
  | renamed => exact absurd hkind edit
  | _ => simp [ChangeKind.needsExtraction, hkind]

end HouseStyle
