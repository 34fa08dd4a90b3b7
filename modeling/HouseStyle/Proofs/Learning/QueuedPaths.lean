import HouseStyle.Learning.Learner
import HouseStyle.Proofs.Learning.Handover
import HouseStyle.Proofs.Path.Normal

/-!
# Paths that are normalized twice

A queue normalizes the paths of a change, and the check of a batch normalizes them once more. The
second time changes exactly the paths whose normal form has a blank at an end: a blank that the
first time uncovered behind a `./`. Any other change is learned through a queue as it is learned
directly.
-/

namespace HouseStyle

namespace Path

/-- A path whose normal form has no blank at an end. -/
def Flush (path : String) : Prop := Text.Flush (normalize path).toList

/-- Normalizing a second time changes nothing exactly when no blank is left at an end. -/
theorem normalize_idem (path : String) :
    normalize (normalize path) = normalize path ↔ Flush path := by
  rw [Flush, normalize, normalize, String.ofList_inj, String.toList_ofList]
  exact normalizeChars_idem path.toList

end Path

/-- The paths that are stored for a change have no blank at an end. The path before counts for
renames only. -/
structure FileChange.Flush (change : FileChange) : Prop where
  path : Path.Flush change.path
  source : change.kind = .renamed → ∀ source ∈ change.previousPath, Path.Flush source

namespace ChangeQueue

lemma kind_normalized (change : FileChange) : (normalized change).kind = change.kind := by
  rw [normalized]

lemma revision_normalized (change : FileChange) :
    (normalized change).revision = change.revision := by
  rw [normalized]

end ChangeQueue

namespace Coalesce

variable {change found : FileChange} {previous : String}

lemma checked_edit_eq_ok (hkind : change.kind ≠ .renamed) : checked change = .ok found ↔
    Path.problem? (Path.normalize change.path) = none ∧
      { change with path := Path.normalize change.path, previousPath := none } = found := by
  simp only [checked, bind_eq_ok, checkedPath_eq_ok, if_neg hkind, pure_eq_ok]
  constructor
  · rintro ⟨_, ⟨haccepted, rfl⟩, hfound⟩
    exact ⟨haccepted, hfound⟩
  · rintro ⟨haccepted, hfound⟩
    exact ⟨_, ⟨haccepted, rfl⟩, hfound⟩

/-- A rename with its paths. One of a file onto itself is an edit. -/
def moved (change : FileChange) (source target : String) : FileChange :=
  if source = target then { change with path := target, kind := .modified, previousPath := none }
  else { change with path := target, previousPath := some source }

lemma checked_rename_eq_ok (hkind : change.kind = .renamed)
    (hprevious : change.previousPath = some previous) : checked change = .ok found ↔
    Path.problem? (Path.normalize change.path) = none ∧
      Path.problem? (Path.normalize previous) = none ∧
      moved change (Path.normalize previous) (Path.normalize change.path) = found := by
  have hreturn : ∀ source target : String, ((if source = target then
      pure { change with path := target, kind := .modified, previousPath := none }
    else pure { change with path := target, previousPath := some source }) :
      Except LearnError FileChange) = pure (moved change source target) := by
    intro source target
    unfold moved
    split <;> rfl
  simp only [checked, bind_eq_ok, checkedPath_eq_ok, if_pos hkind, hprevious, hreturn, pure_eq_ok]
  constructor
  · rintro ⟨_, ⟨hpath, rfl⟩, _, ⟨hsource, rfl⟩, hfound⟩
    exact ⟨hpath, hsource, hfound⟩
  · rintro ⟨hpath, hsource, hfound⟩
    exact ⟨_, ⟨hpath, rfl⟩, _, ⟨hsource, rfl⟩, hfound⟩

lemma moved_inj {source target source' target' : String} (hkind : change.kind = .renamed) :
    moved change source' target' = moved change source target ↔
      source' = source ∧ target' = target := by
  constructor
  · intro h
    unfold moved at h
    split at h <;> split at h <;> simp_all
  · rintro ⟨rfl, rfl⟩
    rfl

/-- A change is checked after its paths were normalized as it is checked with them as they came,
exactly when its paths are flush. -/
theorem checked_normalized_iff (acceptable : change.Acceptable) :
    checked (ChangeQueue.normalized change) = checked change ↔ change.Flush := by
  obtain ⟨found, hfound⟩ := acceptable
  have hkinds := ChangeQueue.kind_normalized change
  rw [hfound]
  by_cases hkind : change.kind = .renamed
  · cases hprevious : change.previousPath with
    | none => simp [checked, bind_eq_ok, hkind, hprevious] at hfound
    | some previous =>
      obtain ⟨hpath, hsource, rfl⟩ := (checked_rename_eq_ok hkind hprevious).mp hfound
      have hqueued : (ChangeQueue.normalized change).previousPath =
          some (Path.normalize previous) := by simp [ChangeQueue.normalized, hprevious]
      have hmoved : ∀ source target, moved (ChangeQueue.normalized change) source target =
          moved change source target := by
        intro source target
        simp only [moved, ChangeQueue.normalized]
      rw [checked_rename_eq_ok (hkinds.trans hkind) hqueued, hmoved, moved_inj hkind]
      simp only [ChangeQueue.normalized]
      constructor
      · rintro ⟨-, -, hsource, hpath⟩
        refine ⟨(Path.normalize_idem _).mp hpath, fun _ source hmem => ?_⟩
        rw [hprevious, Option.mem_some_iff] at hmem
        exact hmem ▸ (Path.normalize_idem _).mp hsource
      · intro flush
        have hpath' := (Path.normalize_idem _).mpr flush.path
        have hsource' := (Path.normalize_idem _).mpr (flush.source hkind previous hprevious)
        exact ⟨(congrArg Path.problem? hpath').trans hpath,
          (congrArg Path.problem? hsource').trans hsource, hsource', hpath'⟩
  · obtain ⟨hpath, rfl⟩ := (checked_edit_eq_ok hkind).mp hfound
    have hkind' : (ChangeQueue.normalized change).kind ≠ .renamed := by
      rw [hkinds]
      exact hkind
    rw [checked_edit_eq_ok hkind']
    simp only [ChangeQueue.normalized, FileChange.mk.injEq, and_true]
    constructor
    · rintro ⟨-, hpath⟩
      exact ⟨(Path.normalize_idem _).mp hpath, fun hrenamed => absurd hrenamed hkind⟩
    · intro flush
      have hpath' := (Path.normalize_idem _).mpr flush.path
      exact ⟨(congrArg Path.problem? hpath').trans hpath, hpath'⟩

end Coalesce

namespace ChangeQueue

variable {change : FileChange}

/-- A change that is pushed to an empty queue is what is drained next. -/
lemma drain?_push_empty (change : FileChange) (trigger : Trigger) (limit : Nat) :
    (empty.push change trigger).drain? limit =
      some (⟨trigger, [normalized change], change.revision⟩, ⟨[], 1, 0⟩) := by
  have hpush : empty.push change trigger =
      ⟨[⟨normalized change, trigger, 0⟩], 1, 0⟩ := by
    have hsource : empty.editedSource? (normalized change) = none := by
      unfold editedSource?
      split
      · cases (normalized change).previousPath <;> rfl
      · rfl
    unfold push
    simp only [hsource]
    rfl
  have htake : ∀ {α : Type} (a : α), [a].take (max limit 1) = [a] :=
    fun a => List.take_of_length_le (by simp)
  have hrevision : ([normalized change].filterMap (·.revision)).getLast? = change.revision := by
    cases h : change.revision <;> simp [revision_normalized, h]
  rw [hpush]
  simp only [drain?, topTrigger?, List.map_cons, List.map_nil, List.foldl_cons, List.foldl_nil,
    Option.getD_none, Trigger.max_self, Option.map_some, List.filter_cons, beq_self_eq_true,
    if_true, List.filter_nil, List.mergeSort_singleton, htake, hrevision]
  simp

/-- What becomes of a change that goes through a queue: its path stays pending, the change itself
is drained from a queue that has no other, and what is learned of it is what is learned of it
directly, unless a path of it is not flush. -/
structure Passes (change : FileChange) : Prop where
  pending : ∀ (queue : ChangeQueue) trigger,
    Path.normalize change.path ∈ (queue.push change trigger).paths
  drained : ∀ trigger limit, (empty.push change trigger).drain? limit =
    some (⟨trigger, [normalized change], change.revision⟩, ⟨[], 1, 0⟩)
  checked : Coalesce.checked (normalized change) = Coalesce.checked change ↔ change.Flush
  learned : change.Flush → ∀ policy sources projectId now store origin,
    learn policy sources projectId now store [normalized change] origin =
      learn policy sources projectId now store [change] origin

/-- A path is normalized to the same text twice, and an acceptable change reaches the same path
through a queue as directly, exactly when there is no blank at an end of what is stored. -/
theorem push_passes (path : String) (change : FileChange) (acceptable : change.Acceptable) :
    (Path.normalize (Path.normalize path) = Path.normalize path ↔ Path.Flush path) ∧
      Passes change := by
  refine ⟨Path.normalize_idem path, ?_⟩
  exact {
    pending := fun queue trigger => (queue.push_grown change trigger).2
    drained := drain?_push_empty change
    checked := Coalesce.checked_normalized_iff acceptable
    learned := by
      intro flush policy sources projectId now store origin
      have hchecked := (Coalesce.checked_normalized_iff acceptable).mpr flush
      have hcoalesce : coalesce policy.batchFiles [normalized change] =
          coalesce policy.batchFiles [change] := by
        simp only [coalesce, List.foldlM_cons, hchecked]
      simp only [learn, LearningTask.begin, hcoalesce] }

/-! A rename that is spelled in other ways, and a blank behind a `./`. -/

def sampleSpelled : FileChange := .renamed "./src//old.ts" "src\\new.ts/"

theorem sampleSpelled_passes : sampleSpelled.Acceptable ∧
    (Path.normalize (Path.normalize sampleSpelled.path) = Path.normalize sampleSpelled.path ↔
      Path.Flush sampleSpelled.path) ∧ Passes sampleSpelled := by
  have acceptable : sampleSpelled.Acceptable := ⟨.renamed "src/old.ts" "src/new.ts", by decide⟩
  exact ⟨acceptable, push_passes sampleSpelled.path sampleSpelled acceptable⟩

theorem sampleUncovered_moves :
    (¬ ∀ path, Path.normalize (Path.normalize path) = Path.normalize path) ∧
      Coalesce.checked (.added "./ a.ts") = .ok (.added " a.ts") ∧
      Coalesce.checked (normalized (.added "./ a.ts")) = .ok (.added "a.ts") := by
  refine ⟨fun settled => ?_, by decide, by decide⟩
  exact absurd (settled "./ a.ts") (by decide)

end ChangeQueue

end HouseStyle
