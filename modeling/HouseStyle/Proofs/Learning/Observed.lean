import HouseStyle.Proofs.Extraction.Contents
import HouseStyle.Proofs.Learning.Calls

/-!
# Learned patterns are rules that can be observed

A pattern that no seed has brought in comes from an observation. So its content is one of the
finitely many rules that can be observed, and is known from its id.
-/

namespace HouseStyle

open Observation (contents)

namespace MergeStep

/-- What a step has seen are rules that can be observed. -/
def Observes : MergeStep → Prop
  | .examine _ _ (.analyzed analysis) => ∀ o ∈ analysis.observations, o.content ∈ contents
  | .examine _ _ _ | .delete _ | .rename _ _ _ => True

lemma observes_examine (sources : Sources) (row : Option TrackedFile) (path : String)
    (revision : Option String) : Observes (.examine path revision (sources.examine row path)) := by
  unfold Sources.examine
  split
  · trivial
  · simp only
    split
    · trivial
    · split
      · trivial
      · intro o ho
        simp only at ho
        exact Observation.observe_mem ho

end MergeStep

lemma LearningTask.steps_observe (task : LearningTask) (sources : Sources) :
    ∀ step ∈ task.steps sources, step.Observes := by
  intro step hstep
  obtain ⟨change, -, hchange⟩ := List.mem_filterMap.mp hstep
  simp only [MergeStep.ofChange?] at hchange
  split at hchange
  · obtain rfl := Option.some.inj hchange
    exact MergeStep.observes_examine _ _ _ _
  · split at hchange
    · obtain ⟨source, -, rfl⟩ := Option.map_eq_some_iff.mp hchange
      trivial
    · obtain rfl := Option.some.inj hchange
      trivial

namespace MergeState

variable {state after : MergeState} {now : Int}

lemma step_gained {step : MergeStep} (honest : state.store.faults.Honest)
    (h : state.step now step = .ok after) (observes : step.Observes)
    (hgained : ∀ entry ∈ state.gained, entry.2 ∈ contents) :
    ∀ entry ∈ after.gained, entry.2 ∈ contents := by
  cases step with
  | examine path revision reading =>
    cases reading with
    | analyzed analysis =>
      obtain ⟨-, -, hafter, -⟩ := examine_ok honest h
      intro entry hentry
      rw [hafter] at hentry
      rcases List.mem_append.mp hentry with hold | hnew
      · exact hgained entry hold
      · obtain ⟨o, ho, rfl⟩ := List.mem_map.mp hnew
        exact observes o ho
    | unchanged => exact Except.ok.inj h ▸ hgained
    | failed => exact Except.ok.inj h ▸ hgained
  | delete path => exact (delete_ok honest h).2.2.1 ▸ hgained
  | rename source target revision => exact (rename_ok honest h).2.2.1 ▸ hgained

lemma steps_gained {steps : List MergeStep} (honest : state.store.faults.Honest)
    (h : steps.foldlM (MergeState.step now) state = .ok after)
    (observes : ∀ step ∈ steps, step.Observes)
    (hgained : ∀ entry ∈ state.gained, entry.2 ∈ contents) :
    ∀ entry ∈ after.gained, entry.2 ∈ contents := by
  induction steps generalizing state with
  | nil => exact pure_eq_ok.mp h ▸ hgained
  | cons step steps ih =>
    rw [List.foldlM_cons, bind_eq_ok] at h
    obtain ⟨mid, hfirst, hrest⟩ := h
    exact ih ((step_effect honest hfirst).honest honest) hrest
      (fun later hlater => observes later (by simp [hlater]))
      (step_gained honest hfirst (observes step (by simp)) hgained)

end MergeState

namespace PatternStore

variable {store after : PatternStore}

/-- Every stored content is the text of a rule that can be observed. -/
def Observed (store : PatternStore) : Prop :=
  ∀ row ∈ store.patterns, ∃ c ∈ contents, row.content = c.toJson.render

/-- What is read of a pattern is the rule whose text is stored. -/
lemma Observed.content (observed : store.Observed) {row : PatternRow} {p : Pattern}
    (hrow : row ∈ store.patterns) (hp : Pattern.ofRow row = .ok p) : p.content ∈ contents := by
  obtain ⟨c, hc, htext⟩ := observed row hrow
  have hread := (Pattern.ofRow_eq_ok_iff.mp hp).1
  rw [htext, Pattern.readContent_render] at hread
  rwa [← Except.ok.inj hread]

lemma observed_put {p : Pattern} {numbers : RowNumbers} (observed : store.Observed)
    (hp : p.content ∈ contents) :
    Observed { store with patterns := putRows store.patterns p, numbers } := by
  intro row hrow
  rcases mem_putRows hrow with hold | rfl | ⟨old, hold, rfl⟩
  · exact observed row hold
  · exact ⟨p.content, hp, p.freshRow_content⟩
  · obtain ⟨c, hc, htext⟩ := observed old hold
    exact ⟨c, hc, (mergePattern_content _ _).trans htext⟩

lemma recomputePattern_observed {policy : LearningPolicy} {version : Nat} {now : Int}
    {content : Option PatternContent} {gained : Bool} {id : String}
    {change : Option PatternChange} (honest : store.faults.Honest) (observed : store.Observed)
    (hcontent : ∀ c, content = some c → c ∈ contents)
    (h : store.recomputePattern policy version now content gained id = .ok (after, change)) :
    after.Observed := by
  obtain ⟨existing, hread, hcases⟩ := recomputePattern_cases h
  split at hcases
  · rcases hcases with ⟨-, rfl, -⟩ | ⟨p, -, hbury, -⟩
    · exact observed
    · obtain ⟨numbers, rfl⟩ := buryPattern_ok hbury honest
      exact fun row hrow => observed row (List.mem_filter.mp hrow).1
  · rcases hcases with ⟨-, -, rfl, -⟩ | ⟨p, candidate, hput⟩
    · exact observed
    · have hp : p.content ∈ contents := by
        have hcandidate := candidate.content
        cases existing with
        | none => exact hcontent p.content (by simpa using hcandidate)
        | some q =>
          obtain ⟨row, hrow, hq⟩ := readPattern?_eq_some.mp hread
          have hsame : q.content = p.content := by simpa using hcandidate
          rw [← hsame]
          exact observed.content (Table.mem_of_lookup _ hrow).1 hq
      rcases putPattern_ok hput honest with ⟨-, -, -, rfl, -⟩ | ⟨-, -, numbers, rfl⟩
      · exact observed
      · exact observed_put observed hp

lemma recompute_observed {policy : LearningPolicy} {version : Nat} {now : Int}
    {gained : List (String × PatternContent)} (hids : ∀ k c, gained.lookup k = some c → c.id = k)
    (hgained : ∀ entry ∈ gained, entry.2 ∈ contents) {keys : List String}
    {before all : List PatternChange} (honest : store.faults.Honest) (observed : store.Observed)
    (h : keys.foldlM (collecting fun store id => store.recomputePattern policy version now
      (gained.lookup id) (gained.lookup id).isSome id) (store, before) = .ok (after, all)) :
    after.Observed := by
  induction keys generalizing store before with
  | nil =>
    obtain ⟨rfl, rfl⟩ := Prod.mk.inj (pure_eq_ok.mp h)
    exact observed
  | cons key keys ih =>
    simp only [List.foldlM_cons, collecting, bind_eq_ok, pure_eq_ok] at h
    obtain ⟨_, ⟨⟨mid, change⟩, hfirst, rfl⟩, hrest⟩ := h
    have hwritten := recomputePattern_written honest (hids key) hfirst
    exact ih (hwritten.honest honest)
      (recomputePattern_observed honest observed
        (fun c hc => hgained (key, c) (lookup_gained hc)) hfirst) hrest

theorem merge_observed {policy : LearningPolicy} {origin : Origin} {mode : LearningMode}
    {preceding : Nat} {now : Int} {steps : List MergeStep} {merged : Merged}
    (honest : store.faults.Honest) (observed : store.Observed)
    (observes : ∀ step ∈ steps, step.Observes)
    (h : store.merge policy origin mode preceding now steps = .ok merged) :
    merged.store.Observed := by
  obtain ⟨state, final, changes, parts⟩ := merge_parts h honest
  obtain ⟨_, _, _, _, hstate⟩ := parts.effect.frame
  have hbefore : state.store.Observed := by
    unfold Observed
    rw [hstate]
    exact observed
  have hstart : ∀ entry ∈ (MergeState.start store).gained, entry.2 ∈ contents := by
    simp [MergeState.start]
  have hgained := MergeState.steps_gained honest parts.steps observes hstart
  have hfinal := recompute_observed (fun k c => gained_content parts.effect) hgained
    (parts.effect.honest honest) hbefore parts.recompute
  unfold Observed
  rw [parts.patterns]
  exact hfinal

end PatternStore

end HouseStyle
