import HouseStyle.Compliance.Exception
import HouseStyle.Proofs.Learning.Draining
import HouseStyle.Proofs.Path.Normal

/-!
# Spellings of one file

Accepted paths have one normal form exactly when the same names follow in them, from the first
name on that is no dot. Queues, batches and stores hold one entry for each normal form, and
exceptions look at nothing else of a path, so two such spellings are one file to all of them. A
dot behind a name stays in the normal form, and is another file.
-/

namespace HouseStyle

namespace Path

variable {p q : String}

/-- The names that lead to the file of a path, without those of directories that are only stayed
in. -/
def fileOf (path : String) : List (List Char) :=
  (names (slashed path.toList)).filter (· ≠ here)

/-- The names of a path from the first one on that leads anywhere. -/
def routeOf (path : String) : List (List Char) := route (slashed path.toList)

/-- Accepted paths have one normal form exactly when they have one route. -/
theorem normalize_eq_iff (hp : Coalesce.checkedPath p = .ok (normalize p))
    (hq : Coalesce.checkedPath q = .ok (normalize q)) :
    normalize p = normalize q ↔ routeOf p = routeOf q := by
  have hp := (Coalesce.checkedPath_eq_ok.mp hp).1
  have hq := (Coalesce.checkedPath_eq_ok.mp hq).1
  rw [problem?, normalize, String.toList_ofList] at hp hq
  rw [normalize, normalize, String.ofList_inj]
  exact normalizeChars_inj hp hq

end Path

namespace LearnerRun

/-- After any calls the tracked files have different paths. -/
theorem run_nodup (projectId : String) (calls : List LearnerCall) {store : PatternStore}
    (nodup : (store.files.map (·.filePath)).Nodup) :
    ((run projectId store calls).files.map (·.filePath)).Nodup := by
  induction calls generalizing store with
  | nil => exact nodup
  | cons call calls ih =>
    refine ih ?_
    rw [call.perform_store]
    cases hmerged : call.merged? store with
    | none => exact nodup
    | some merged =>
      rcases LearnerCall.merged?_cases hmerged with
        ⟨sources, changes, origin, task, -, -, hmerge⟩ | ⟨seeds, -, himport⟩
      · obtain ⟨state, _, _, parts⟩ := PatternStore.merge_parts hmerge call.honest
        simp only [parts.files]
        exact MergeState.steps_nodup call.honest parts.steps nodup
      · obtain ⟨_, _, parts⟩ := PatternStore.importSeeds_parts himport call.honest
        simp only [parts.files]
        exact nodup

end LearnerRun

/-- Two spellings that are one file to the queue, to the learner and to exceptions. -/
structure OneFile (p q : String) : Prop where
  key : Path.normalize p = Path.normalize q
  queued : ∀ calls : List ChangeQueue.Call,
    ∀ first ∈ (ChangeQueue.empty.afterCalls calls).pending,
    ∀ second ∈ (ChangeQueue.empty.afterCalls calls).pending,
      first.change.path = Path.normalize p → second.change.path = Path.normalize q →
        first = second
  kept : ∀ limit changes kept, coalesce limit changes = .ok kept →
    ∀ first ∈ kept, ∀ second ∈ kept,
      first.path = Path.normalize p → second.path = Path.normalize q → first = second
  tracked : ∀ projectId calls,
    ∀ first ∈ (LearnerRun.run projectId .empty calls).files,
    ∀ second ∈ (LearnerRun.run projectId .empty calls).files,
      first.filePath = Path.normalize p → second.filePath = Path.normalize q → first = second
  scope : ∀ scope, Scope.compile p = .ok scope ↔ Scope.compile q = .ok scope
  excepted : ∀ (store : PatternStore) id, store.isExcepted id p = store.isExcepted id q

namespace Path

variable {p q : String}

lemma checkablePath_eq (hp : Coalesce.checkedPath p = .ok (normalize p)) :
    checkablePath p = .ok (normalize p) := by
  simp only [checkablePath, (Coalesce.checkedPath_eq_ok.mp hp).1]

/-- Apart from the text in its errors, a scope is what its normal form is. -/
lemma compile_congr (h : normalize p = normalize q) (scope : Scope) :
    Scope.compile p = .ok scope ↔ Scope.compile q = .ok scope := by
  unfold Scope.compile
  simp only [h]
  split
  · simp
  · split
    · split <;> simp
    · rfl

/-- Accepted paths that lead through the same names are one file: they have one normal form, under
which there is never more than one entry. Accepted paths that lead through others have two. -/
theorem oneFile_iff (hp : Coalesce.checkedPath p = .ok (normalize p))
    (hq : Coalesce.checkedPath q = .ok (normalize q)) :
    OneFile p q ↔ routeOf p = routeOf q := by
  rw [← normalize_eq_iff hp hq]
  refine ⟨fun one => one.key, fun hkey => ?_⟩
  exact {
    key := hkey
    queued := by
      intro calls first hfirst second hsecond hone htwo
      have numbered := ChangeQueue.numbered_empty.afterCalls calls
      exact ChangeQueue.path_injective numbered.nodup hfirst hsecond
        (hone.trans (hkey.trans htwo.symm))
    kept := by
      intro limit changes kept hkept first hfirst second hsecond hone htwo
      have proper := Coalesce.coalesce_proper hkept
      exact List.inj_on_of_nodup_map proper.nodup hfirst hsecond
        (hone.trans (hkey.trans htwo.symm))
    tracked := by
      intro projectId calls first hfirst second hsecond hone htwo
      have nodup : ((LearnerRun.run projectId .empty calls).files.map (·.filePath)).Nodup :=
        LearnerRun.run_nodup projectId calls List.nodup_nil
      exact List.inj_on_of_nodup_map nodup hfirst hsecond (hone.trans (hkey.trans htwo.symm))
    scope := compile_congr hkey
    excepted := by
      intro store id
      unfold PatternStore.isExcepted
      rw [checkablePath_eq hp, checkablePath_eq hq, hkey] }

theorem sampleSpellings_oneFile :
    Coalesce.checkedPath ".\\src//a.ts " = .ok (normalize ".\\src//a.ts ") ∧
      Coalesce.checkedPath "././src/a.ts/" = .ok (normalize "././src/a.ts/") ∧
      OneFile ".\\src//a.ts " "././src/a.ts/" := by
  have hp : Coalesce.checkedPath ".\\src//a.ts " = .ok (normalize ".\\src//a.ts ") := by decide
  have hq : Coalesce.checkedPath "././src/a.ts/" = .ok (normalize "././src/a.ts/") := by decide
  exact ⟨hp, hq, (oneFile_iff hp hq).mpr (by decide)⟩

/-- A dot behind a name leads to the same directory, and to another entry. Scopes are compiled once
for each text, and not for each normal form. -/
theorem sampleSpellings_apart : (¬ ∀ p q : String,
    Coalesce.checkedPath p = .ok (normalize p) → Coalesce.checkedPath q = .ok (normalize q) →
      fileOf p = fileOf q → normalize p = normalize q) ∧
    normalize "a.ts" = normalize "./a.ts" ∧
    ((ScopeCache.empty.scope "a.ts").2.scope "./a.ts").2.compiled.length = 2 := by
  refine ⟨fun canonical => ?_, by decide, by decide⟩
  have hkey := canonical "src/./a.ts" "src/a.ts" (by decide) (by decide) (by decide)
  exact absurd hkey (by decide)

end Path

end HouseStyle
