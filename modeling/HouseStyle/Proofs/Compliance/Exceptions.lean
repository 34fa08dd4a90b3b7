import HouseStyle.Proofs.Compliance.Conflicts
import Mathlib

/-!
# What an exception does to a report

An added exception silences its own pattern where its scope reaches, and changes nothing else: no
conflict comes or goes, only the side changes on which the conflicts with that pattern are. A
report is sorted after its conflicts are chosen, so the choice has to pass through the sort.
-/

namespace HouseStyle

/-! ## Sorting what is left -/

section Sorting

variable {α : Type} {le : α → α → Bool}

/-- A list that is split in front of all that `a` comes before is split in one place. -/
lemma takeWhile_split {a : α} {before after : List α} (hbefore : ∀ b ∈ before, (!le a b) = true)
    (hafter : ∀ b ∈ after, le a b = true) :
    (before ++ after).takeWhile (fun b => !le a b) = before := by
  rw [List.takeWhile_append_of_pos hbefore]
  cases after with
  | nil => simp
  | cons b after => simp [hafter b (by simp)]

variable (trans : ∀ a b c, le a b = true → le b c = true → le a c = true)
  (total : ∀ a b, (le a b || le b a) = true)

include trans total

lemma le_of_mergeSort_cons {a : α} {xs before after : List α}
    (h : (a :: xs).mergeSort le = before ++ a :: after) : ∀ b ∈ after, le a b = true := by
  intro b hb
  have hsorted := List.pairwise_mergeSort trans total (a :: xs)
  rw [h] at hsorted
  exact List.rel_of_pairwise_cons (List.pairwise_append.mp hsorted).2.1 hb

/-- What is chosen from a sorted list is what was chosen, sorted. -/
theorem filter_mergeSort (keep : α → Bool) (xs : List α) :
    (xs.mergeSort le).filter keep = (xs.filter keep).mergeSort le := by
  induction xs with
  | nil => simp
  | cons a xs ih =>
    obtain ⟨before, after, hcons, htail, hbefore⟩ := List.mergeSort_cons trans total a xs
    have hafter := le_of_mergeSort_cons trans total hcons
    rw [htail, List.filter_append] at ih
    cases hkeep : keep a with
    | false => simp [hcons, hkeep, ih]
    | true =>
      obtain ⟨before', after', hcons', htail', hbefore'⟩ :=
        List.mergeSort_cons trans total a (xs.filter keep)
      rw [htail'] at ih
      have hafter' := le_of_mergeSort_cons trans total hcons'
      -- both splits are where `a` belongs
      have hsame : before.filter keep = before' := by
        rw [← takeWhile_split (fun b hb => hbefore b (List.mem_filter.mp hb).1)
          fun b hb => hafter b (List.mem_filter.mp hb).1, ih, takeWhile_split hbefore' hafter']
      rw [hsame] at ih
      rw [hcons, List.filter_append, hsame, List.filter_cons_of_pos hkeep,
        List.append_cancel_left ih, List.filter_cons_of_pos hkeep, hcons']

end Sorting

/-! ## Scopes that were compiled before -/

namespace ScopeCache

/-- Every scope that is kept is that of its text. -/
def Faithful (cache : ScopeCache) : Prop :=
  ∀ entry ∈ cache.compiled, Scope.compile entry.1 = .ok entry.2

lemma faithful_empty : Faithful .empty := by simp [Faithful, empty]

/-- Scopes may be given up at any time. -/
lemma Faithful.evict {cache : ScopeCache} (faithful : cache.Faithful)
    {kept : List (String × Scope)} (hkept : kept.Sublist cache.compiled) :
    Faithful { cache with compiled := kept } :=
  fun entry hentry => faithful entry (hkept.subset hentry)

lemma Faithful.scope {cache : ScopeCache} (faithful : cache.Faithful) (text : String) :
    (cache.scope text).1 = Scope.compile text ∧ (cache.scope text).2.Faithful := by
  unfold ScopeCache.scope
  cases hlookup : cache.compiled.lookup text with
  | some found =>
    obtain ⟨before, after, hcompiled, -⟩ := List.lookup_eq_some_iff.mp hlookup
    exact ⟨(faithful (text, found) (by simp [hcompiled])).symm, faithful⟩
  | none =>
    cases hcompile : Scope.compile text with
    | ok compiled =>
      refine ⟨rfl, ?_⟩
      intro entry hentry
      rcases List.mem_cons.mp hentry with rfl | hold
      · exact hcompile
      · exact faithful entry hold
    | error error => exact ⟨rfl, faithful⟩

/-- Search the scopes written in some texts by way of a cache. -/
def coveredBy (path : String) : ScopeCache → List String → Except DetectionError Bool × ScopeCache
  | cache, [] => (.ok false, cache)
  | cache, text :: texts =>
    match cache.scope text with
    | (.ok scope, cache) =>
      if scope.covers path then (.ok true, cache) else coveredBy path cache texts
    | (.error error, cache) => (.error error, cache)

/-- What was compiled before makes no difference. -/
theorem Faithful.coveredBy {cache : ScopeCache} (faithful : cache.Faithful) (path : String)
    (texts : List String) : (cache.coveredBy path texts).1 = HouseStyle.coveredBy path texts ∧
      (cache.coveredBy path texts).2.Faithful := by
  induction texts generalizing cache with
  | nil => exact ⟨rfl, faithful⟩
  | cons text texts ih =>
    obtain ⟨hscope, hfaithful⟩ := faithful.scope text
    rcases hfound : cache.scope text with ⟨result, later⟩
    simp only [hfound] at hscope hfaithful
    simp only [ScopeCache.coveredBy, HouseStyle.coveredBy, hfound, ← hscope]
    cases result with
    | error error => exact ⟨rfl, hfaithful⟩
    | ok scope =>
      cases hcovers : scope.covers path with
      | true => simp [hcovers, hfaithful, bind, Except.bind, pure, Except.pure]
      | false => simpa [hcovers, bind, Except.bind] using ih hfaithful

end ScopeCache

/-! ## The exception that is added -/

namespace PatternStore

variable {store after : PatternStore} {path : String}

/-- Which patterns a check goes by depends on the patterns alone. -/
lemma conflictsIn_congr (h : after.patterns = store.patterns) (path : String)
    (observations : List Observation) :
    after.conflictsIn path observations = store.conflictsIn path observations := by
  have hslots : after.slotPatterns = store.slotPatterns := by
    funext language slot
    simp only [slotPatterns, patternsInSlot, h]
  simp only [conflictsIn, slotsOf, hslots]

/-- A check finds conflicts with stored patterns, whatever their frequencies are. -/
lemma Ruled.conflictsIn_succeeds (ruled : store.Ruled) (path : String)
    (observations : List Observation) :
    ∃ conflicts, store.conflictsIn path observations = .ok conflicts ∧
      ∀ c ∈ conflicts, Text.trim c.pattern.id.toList ≠ [] := by
  have hslot : ∀ slot, ∃ listed, store.slotPatterns (Language.ofPath? path) slot = .ok listed ∧
      ∀ p ∈ listed.patterns, Text.trim p.id.toList ≠ [] := by
    intro slot
    have hrow : ∀ row ∈ store.patternsInSlot slot, ∃ p, Pattern.ofRow row = .ok p ∧
        Text.trim p.id.toList ≠ [] := by
      intro row hrow
      have sound := ruled.rows row (List.mem_filter.mp (List.mem_mergeSort.mp hrow)).1
      obtain ⟨p, hp, -⟩ := sound.reads
      exact ⟨p, hp, Pattern.ofRow_id hp ▸ sound.named⟩
    obtain ⟨patterns, hpatterns, hread⟩ := exists_mapM hrow
    refine ⟨_, by rw [slotPatterns, hpatterns]; rfl, fun p hp => ?_⟩
    obtain ⟨_, -, named⟩ := exists_left hread (List.mem_filter.mp hp).1
    exact named
  obtain ⟨slots, hslots, hlisted⟩ :=
    exists_mapM fun slot (_ : slot ∈ (observations.map (·.content.slot)).eraseDups) => hslot slot
  refine ⟨_, by rw [conflictsIn, slotsOf, hslots]; rfl, fun c hc => ?_⟩
  obtain ⟨o, -, hfound⟩ := List.mem_filterMap.mp hc
  simp only [Conflict.ofObservation?, Option.bind_eq_bind, Option.bind_eq_some_iff,
    Option.some.injEq] at hfound
  obtain ⟨listed, hmem, d, hd, rfl⟩ := hfound
  obtain ⟨_, -, named⟩ := exists_left hlisted (List.mem_of_find?_eq_some hmem)
  exact named d (List.mem_of_mem_head? (Option.filter_eq_some_iff.mp hd).1)

/-- An exception reaches its own pattern, on the paths that its scope covers. -/
lemma Ruled.silences_excepting (ruled : store.Ruled) {now : Int} {patternId reason text : String}
    {scope : Scope} (hscope : Scope.compile text = .ok scope)
    (allowed : store.faults.allows .exceptions .insert = .ok true) {id : String}
    (named : Text.trim id.toList ≠ []) :
    (store.excepting now patternId reason text).silences id path =
      (store.silences id path || (id == patternId && scope.covers path)) := by
  by_cases blank : Text.trim patternId.toList = []
  · have hother : (id == patternId) = false := by
      rw [beq_eq_false_iff_ne]
      rintro rfl
      exact named blank
    rw [excepting_blank blank, hother, Bool.false_and, Bool.or_false]
  obtain ⟨numbers, hadded⟩ := excepting_eq now reason allowed blank hscope
  have hreaches : Scope.Reaches text path ↔ scope.covers path = true := by
    simp [Scope.Reaches, hscope]
  rw [Bool.eq_iff_iff, (ruled.excepting ..).1.silences_iff, Bool.or_eq_true,
    ruled.silences_iff, hadded]
  simp only [Excepts, List.mem_append, List.mem_singleton, or_and_right, exists_or, exists_eq_left,
    nextException, hreaches, Bool.and_eq_true, beq_iff_eq, eq_comm (a := id)]

variable {policy : SeverityPolicy} {options : CheckOptions} {conflicts : List Conflict}

/-- Where the same conflicts are silenced, the same violations are reported. -/
lemma violationsOf_congr
    (h : ∀ c ∈ conflicts, after.silences c.pattern.id path = store.silences c.pattern.id path) :
    after.violationsOf policy options path conflicts =
      store.violationsOf policy options path conflicts := by
  rw [violationsOf, violationsOf, List.filter_congr fun c hc => congrArg (!·) (h c hc)]

/-- Where one more pattern is silenced, its violations are left out. -/
lemma violationsOf_silenced {patternId : String} (h : ∀ c ∈ conflicts,
    after.silences c.pattern.id path =
      (store.silences c.pattern.id path || c.pattern.id == patternId)) :
    after.violationsOf policy options path conflicts =
      (store.violationsOf policy options path conflicts).filter (·.patternId != patternId) := by
  rw [violationsOf, violationsOf, filter_mergeSort Violation.before_trans Violation.before_total,
    List.filter_map]
  congr 2
  rw [List.filter_filter, List.filter_filter, List.filter_filter]
  refine List.filter_congr fun c hc => ?_
  rw [h c hc]
  simp [Conflict.violation, bne, Bool.and_assoc, Bool.and_comm, Bool.and_left_comm]

/-- Suppressed conflicts are those that were before, and those with one more pattern. -/
lemma countP_silenced {patternId : String} (h : ∀ c ∈ conflicts,
    after.silences c.pattern.id path =
      (store.silences c.pattern.id path || c.pattern.id == patternId)) :
    conflicts.countP (fun c => after.silences c.pattern.id path) =
      conflicts.countP (fun c => store.silences c.pattern.id path) +
        conflicts.countP fun c =>
          c.pattern.id == patternId && !store.silences c.pattern.id path := by
  induction conflicts with
  | nil => rfl
  | cons c conflicts ih =>
    have hrest := ih fun later hlater => h later (by simp [hlater])
    simp only [List.countP_cons, h c (by simp), hrest]
    cases store.silences c.pattern.id path <;> cases c.pattern.id == patternId <;> simp <;> omega

end PatternStore

/-- Fewer violations cost less. -/
lemma SeverityPolicy.score_le (policy : SeverityPolicy) {found left : List Severity}
    (h : left.Sublist found) : policy.score found ≤ policy.score left := by
  rw [score_eq, score_eq]
  have := (h.map policy.penalty).sum_le_sum (by simp)
  omega

/-! ## Reports before and after -/

/-- A report suppresses just the conflicts with patterns that are excepted, whatever scopes were
compiled before, and lists the others as far as they are severe enough. -/
def ComplianceReport.Separates (store : PatternStore) (check : FileCheck) (path : String)
    (conflicts : List Conflict) (report : ComplianceReport) : Prop :=
  ∃ excepted : String → Bool,
    (∀ id, store.isExcepted id check.path = .ok (excepted id) ∧
      ∀ cache : ScopeCache, cache.Faithful →
        (cache.coveredBy path (store.scopesOf id)).1 = .ok (excepted id)) ∧
    report.suppressed = conflicts.countP (fun c => excepted c.pattern.id) ∧
    report.violations.Perm (((conflicts.filter fun c => !excepted c.pattern.id).filter
      (Conflict.isListed check.policy check.options)).map
      (Conflict.violation check.policy check.options path))

namespace FileCheck

variable {store after : PatternStore} {check : FileCheck} {path : String}
  {conflicts : List Conflict}

lemma reportOf_separates (ruled : store.Ruled) (hpath : checkablePath check.path = .ok path)
    (conflicts : List Conflict) :
    (check.reportOf store path conflicts).Separates store check path conflicts := by
  refine ⟨fun id => store.silences id path, fun id => ⟨ruled.isExcepted_eq hpath, ?_⟩, rfl,
    List.mergeSort_perm _ _⟩
  intro cache faithful
  obtain ⟨covered, hcovered, -⟩ := ruled.covered id path
  have hsilences : store.silences id path = covered := by rw [PatternStore.silences, hcovered]
  exact (faithful.coveredBy path _).1.trans (hcovered.trans (congrArg _ hsilences.symm))

/-- Where the same conflicts are silenced, the report is the same. -/
lemma reportOf_congr
    (h : ∀ c ∈ conflicts, after.silences c.pattern.id path = store.silences c.pattern.id path) :
    check.reportOf after path conflicts = check.reportOf store path conflicts := by
  simp only [reportOf, PatternStore.reportOf, PatternStore.violationsOf_congr h,
    List.countP_congr fun c hc => iff_of_eq (congrArg (· = true) (h c hc))]

/-- Where one more pattern is silenced, its violations are counted instead. -/
lemma reportOf_silenced (check : FileCheck) {patternId : String} (h : ∀ c ∈ conflicts,
    after.silences c.pattern.id path =
      (store.silences c.pattern.id path || c.pattern.id == patternId)) :
    (check.reportOf after path conflicts).violations =
        (check.reportOf store path conflicts).violations.filter (·.patternId != patternId) ∧
      (check.reportOf after path conflicts).suppressed =
        (check.reportOf store path conflicts).suppressed + conflicts.countP fun c =>
          c.pattern.id == patternId && !store.silences c.pattern.id path :=
  ⟨PatternStore.violationsOf_silenced h, PatternStore.countP_silenced h⟩

/-- A report with fewer violations scores more. -/
lemma reportOf_score_le
    (h : (check.reportOf after path conflicts).violations.Sublist
      (check.reportOf store path conflicts).violations) :
    (check.reportOf store path conflicts).score ≤ (check.reportOf after path conflicts).score :=
  check.policy.score_le (h.map _)

/-- After an exception was added to a checked project, the same conflicts are found, and more of
them are silenced where its scope covers the path. -/
lemma silences_after (ruled : store.Ruled) (check : FileCheck) (now later : Int)
    (patternId reason : String) {text : String} {scope : Scope}
    (hscope : Scope.compile text = .ok scope)
    (allowed : store.faults.allows .exceptions .insert = .ok true) :
    ∃ after, (check.perform now store).store.excepting later patternId reason text = after ∧
      after.Ruled ∧ after.patterns = store.patterns ∧ after.faults = store.faults ∧
      ∀ id, Text.trim id.toList ≠ [] → ∀ path, after.silences id path =
        (store.silences id path || (id == patternId && scope.covers path)) := by
  obtain ⟨violations, numbers, hleft⟩ := check.perform_frame now store
  rw [hleft]
  generalize hchecked : ({ store with violations, numbers } : PatternStore) = checked
  have hruled : checked.Ruled := hchecked ▸ ruled.congr rfl rfl
  obtain ⟨exceptions, numbers', hafter, -⟩ :=
    checked.excepting_cases later patternId reason text
  refine ⟨_, rfl, (hruled.excepting ..).1, ?_, ?_, fun id named path => ?_⟩
  · rw [hafter, ← hchecked]
  · rw [hafter, ← hchecked]
  · rw [hruled.silences_excepting hscope (hchecked ▸ allowed) named, ← hchecked]
    rfl

open Classical in
/-- One more pattern that is silenced where a scope covers the path makes a difference there, to
the conflicts with this pattern. -/
lemma reportOf_narrowed (ruled : store.Ruled) (check : FileCheck) {patternId : String}
    {scope : Scope} (named : ∀ c ∈ conflicts, Text.trim c.pattern.id.toList ≠ [])
    (hsilences : ∀ id, Text.trim id.toList ≠ [] → after.silences id path =
      (store.silences id path || (id == patternId && scope.covers path))) :
    (if scope.covers path = true then
      (check.reportOf after path conflicts).violations =
          (check.reportOf store path conflicts).violations.filter (·.patternId != patternId) ∧
        (check.reportOf after path conflicts).suppressed =
          (check.reportOf store path conflicts).suppressed + (conflicts.filter fun c =>
            c.pattern.id = patternId ∧ ¬ store.Excepts c.pattern.id path).length
    else check.reportOf after path conflicts = check.reportOf store path conflicts) ∧
    (check.reportOf store path conflicts).score ≤ (check.reportOf after path conflicts).score := by
  by_cases hcovers : scope.covers path = true
  · have hmore : ∀ c ∈ conflicts, after.silences c.pattern.id path =
        (store.silences c.pattern.id path || c.pattern.id == patternId) := fun c hc => by
      rw [hsilences _ (named c hc), hcovers, Bool.and_true]
    obtain ⟨hviolations, hsuppressed⟩ := reportOf_silenced check hmore
    rw [if_pos hcovers]
    refine ⟨⟨hviolations, hsuppressed.trans ?_⟩,
      reportOf_score_le (hviolations ▸ List.filter_sublist)⟩
    simp only [List.countP_eq_length_filter, ← ruled.silences_iff, Bool.not_eq_true]
    simp [Bool.decide_and, Bool.beq_eq_decide_eq]
  · have hsame : check.reportOf after path conflicts = check.reportOf store path conflicts :=
      reportOf_congr fun c hc => by
        rw [hsilences _ (named c hc), eq_false_of_ne_true hcovers, Bool.and_false, Bool.or_false]
    rw [if_neg hcovers, hsame]
    exact ⟨rfl, le_rfl⟩

open Classical in
/-- An exception that is added suppresses just its own pattern, just where its scope covers the
checked path. -/
theorem exception_narrows (projectId : String) (calls : List ProjectCall) (faults : Faults)
    (check : FileCheck) {path : String} (hpath : checkablePath check.path = .ok path)
    (patternId reason : String) {text : String} {scope : Scope}
    (hscope : Scope.compile text = .ok scope) (first second third : Int)
    (allowed : faults.allows .exceptions .insert = .ok true)
    (writable : check.options.trackHistory = true →
      faults.allows .violations .insert = .ok true) :
    let store := (ProjectCall.run projectId .empty calls).under faults
    let after := (check.perform first store).store.excepting second patternId reason text
    (∃ conflicts old new,
      store.conflictsIn path (check.observations path) = .ok conflicts ∧
      (check.perform first store).result = .ok old ∧ (check.perform third after).result = .ok new ∧
      old.Separates store check path conflicts ∧ new.Separates after check path conflicts ∧
      (if scope.covers path = true then
        new.violations = old.violations.filter (·.patternId != patternId) ∧
        new.suppressed = old.suppressed + (conflicts.filter fun c =>
          c.pattern.id = patternId ∧ ¬ store.Excepts c.pattern.id path).length
      else new = old) ∧
      old.score ≤ new.score) ∧
    ∀ (later : List ProjectCall) (id asked : String), store.isExcepted id asked = .ok true →
      (ProjectCall.run projectId store later).isExcepted id asked = .ok true := by
  intro store after
  have ruled : store.Ruled :=
    (ProjectCall.run_ruled projectId calls PatternStore.ruled_empty).1.under faults
  refine ⟨?_, fun later id asked h => ?_⟩
  · obtain ⟨conflicts, hconflicts, named⟩ :=
      ruled.conflictsIn_succeeds path (check.observations path)
    obtain ⟨after', hafter, hruled, hpatterns, hfaults, hsilences⟩ :=
      silences_after ruled check first second patternId reason hscope allowed
    obtain rfl : after = after' := hafter
    have hold := (perform_ok hpath hconflicts writable first).1
    have hnew := (perform_ok hpath ((PatternStore.conflictsIn_congr hpatterns _ _).trans hconflicts)
      (hfaults ▸ writable) third).1
    refine ⟨conflicts, _, _, hconflicts, hold, hnew, reportOf_separates ruled hpath conflicts,
      reportOf_separates hruled hpath conflicts, ?_⟩
    -- the checks differ in what is silenced only
    exact reportOf_narrowed ruled check named fun id hid => hsilences id hid path
  · obtain ⟨hrun, hlonger⟩ := ProjectCall.run_ruled projectId later ruled
    obtain ⟨excepted, hasked, hexcepts⟩ := ruled.isExcepted_iff.mp h
    exact hrun.isExcepted_iff.mpr ⟨excepted, hasked, hexcepts.mono hlonger⟩

open Classical in
/-- The style that both variables of the sample are held to is excepted for their file. -/
theorem sampleStyles_narrows :
    let store := (ProjectCall.run "a" .empty (sampleStyles 5 3)).under .none
    let after := (sampleCheck.perform 0 store).store.excepting 1 sampleCamel "legacy" "a.*"
    ∃ conflicts old new,
      (sampleCheck.perform 0 store).result = .ok old ∧
      (sampleCheck.perform 2 after).result = .ok new ∧
      old.Separates store sampleCheck "a.ts" conflicts ∧
      new.Separates after sampleCheck "a.ts" conflicts ∧
      new.violations = old.violations.filter (·.patternId != sampleCamel) ∧
      new.suppressed = old.suppressed + (conflicts.filter fun c =>
        c.pattern.id = sampleCamel ∧ ¬ store.Excepts c.pattern.id "a.ts").length ∧
      old.score ≤ new.score := by
  intro store after
  have hpath : checkablePath sampleCheck.path = .ok "a.ts" := rfl
  have hscope : Scope.compile "a.*" = .ok (.glob "a.*" [.literal 'a', .literal '.', .star]) := rfl
  have hcovers : (Scope.glob "a.*" [.literal 'a', .literal '.', .star]).covers "a.ts" = true := rfl
  obtain ⟨⟨conflicts, old, new, -, hold, hnew, separates, separates', hnarrows, hscore⟩, -⟩ :=
    exception_narrows "a" (sampleStyles 5 3) .none sampleCheck hpath sampleCamel "legacy" hscope
      0 1 2 rfl fun _ => rfl
  rw [if_pos hcovers] at hnarrows
  exact ⟨conflicts, old, new, hold, hnew, separates, separates', hnarrows.1, hnarrows.2, hscore⟩

end FileCheck

end HouseStyle
