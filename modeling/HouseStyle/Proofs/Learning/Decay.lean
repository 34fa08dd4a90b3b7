import HouseStyle.Config.Settings
import HouseStyle.Proofs.Learning.Modes
import HouseStyle.Proofs.Text.Sorted

/-!
# Confidence decays only with evidence

All stored confidences lie between 0 and 1. A batch computes each pattern anew at most once, and
gives up what is stored only when the frequency falls; seeds are weighed against what is stored,
whatever their frequency. None of this depends on the clock, nor on how scores are rounded.
-/

namespace HouseStyle

/-! ## Confidences -/

namespace Binary64

lemma le_of_lt {x y : Float} (hx : x.isNaN = false) (hy : y.isNaN = false) (h : x < y) :
    x ≤ y := by
  rw [lt_iff_standing hx hy, compareStandings_eq_lt] at h
  rw [le_iff_standing hx hy, Ne, compareStandings_eq_gt]
  omega

lemma InUnit.bounds {x : Float} (unit : InUnit x) : 0 ≤ x ∧ x ≤ 1 :=
  ⟨le_of_not_lt (by decide) unit.number unit.low, le_of_not_lt unit.number (by decide) unit.high⟩

lemma inUnit_of_bounds {x : Float} (low : 0 ≤ x) (high : x ≤ 1) : InUnit x := by
  have hclamp : clampUnit x = x := by
    rw [clampUnit, if_neg (not_lt_of_le low), if_neg (not_lt_of_le high)]
  have unit : InUnit (clampUnit x) := by
    apply inUnit_of_clampUnit
    rw [hclamp]
    exact (isNaN_of_le low).2
  rwa [hclamp] at unit

end Binary64

open Binary64

namespace ConfidencePolicy

lemma inUnit_score {policy : ConfidencePolicy} (finite : policy.bonus.isFinite = true)
    (frequency : Nat) (lastSeen now : Int) : InUnit (policy.score frequency lastSeen now) :=
  inUnit_of_clampUnit (isNaN_score finite frequency lastSeen now)

/-- What is stored after a pattern was seen again is at least what was stored before. -/
lemma previous_le_corroborate {previous computed : Float} (hprevious : InUnit previous)
    (hcomputed : InUnit computed) : previous ≤ corroborate previous computed := by
  by_cases h : previous < computed
  · rw [corroborate_of_lt hprevious.number hcomputed h]
    exact le_of_lt hprevious.number hcomputed.number h
  · rw [corroborate_of_le hprevious (le_of_not_lt hcomputed.number hprevious.number h)]
    exact le_refl hprevious.number

end ConfidencePolicy

/-- Settings without a mistake have a bonus between 0 and 1. -/
lemma Settings.inUnit_bonus {settings : Settings} (valid : settings.validate = .ok ()) :
    InUnit settings.learning.confidencePolicy.bonus := by
  simp only [validate, bind_eq_ok] at valid
  obtain ⟨_, -, _, -, _, hbonus, -⟩ := valid
  change (if settings.learning.recencyBonus.all (fun v => 0.0 ≤ v && v ≤ 1.0) = true
    then _ else _) = _ at hbonus
  split at hbonus
  · next hrange =>
    change InUnit (settings.learning.recencyBonus.getD 0.05)
    cases hset : settings.learning.recencyBonus with
    | none => exact ⟨by decide, by decide, by decide⟩
    | some bonus =>
      rw [hset, Option.all_some, Bool.and_eq_true, decide_eq_true_iff, decide_eq_true_iff]
        at hrange
      exact inUnit_of_bounds hrange.1 hrange.2
  · cases hbonus

lemma PatternSeed.inUnit_of_check {seed : PatternSeed} (h : seed.check = .ok ()) :
    InUnit seed.confidence := by
  unfold check at h
  split at h
  · next hrange => exact inUnit_of_bounds hrange.1 hrange.2
  · cases h

/-! ## Writing a pattern -/

/-- A number that is stored and read again is not larger. -/
lemma readWord_storedWord_le (n : Nat) : readWord (storedWord n) ≤ n := by
  unfold readWord storedWord Int.bmod Word.bound
  simp only
  split <;> omega

lemma Pattern.freshRow_frequency (p : Pattern) : p.freshRow.frequency = storedWord p.frequency := by
  rw [freshRow, toRow]

namespace PatternStore

variable {store after : PatternStore} {policy : LearningPolicy} {key : String} {now : Int}

/-- The patterns are told apart by their ids, and their confidences lie between 0 and 1. -/
structure Confident (store : PatternStore) : Prop where
  nodup : (store.patterns.map (·.patternId)).Nodup
  unit : ∀ row ∈ store.patterns, InUnit row.confidence

lemma confident_empty : Confident .empty := ⟨List.nodup_nil, nofun⟩

lemma Confident.congr (confident : store.Confident) (h : after.patterns = store.patterns) :
    after.Confident :=
  ⟨h ▸ confident.nodup, h ▸ confident.unit⟩

lemma Confident.lookup (confident : store.Confident) {row : PatternRow}
    (h : store.getPattern? key = some row) : InUnit row.confidence :=
  confident.unit row (Table.mem_of_lookup PatternRow.patternId h).1

/-- What a batch may do to what is stored of a pattern. Confidence is lost only with frequency. -/
def Fair (old new : Option PatternRow) : Prop :=
  ∀ row left, old = some row → new = some left →
    readWord row.frequency ≤ readWord left.frequency → row.confidence ≤ left.confidence

/-- What an import may do to what is stored of a pattern. It is neither lost, nor less sure. -/
def Rises (old new : Option PatternRow) : Prop :=
  ∀ row, old = some row → ∃ left, new = some left ∧ row.confidence ≤ left.confidence

lemma Confident.fair (confident : store.Confident)
    (h : after.getPattern? key = store.getPattern? key) :
    Fair (store.getPattern? key) (after.getPattern? key) := by
  intro row left hrow hleft _
  rw [h, hrow] at hleft
  obtain rfl := Option.some.inj hleft
  exact le_refl (confident.lookup hrow).number

lemma Confident.rises (confident : store.Confident)
    (h : after.getPattern? key = store.getPattern? key) :
    Rises (store.getPattern? key) (after.getPattern? key) := by
  intro row hrow
  exact ⟨row, h.trans hrow, le_refl (confident.lookup hrow).number⟩

lemma Rises.trans {old mid new : Option PatternRow} (first : Rises old mid)
    (second : Rises mid new) : Rises old new := by
  intro row hrow
  obtain ⟨next, hnext, hle⟩ := first row hrow
  obtain ⟨left, hleft, hle'⟩ := second next hnext
  exact ⟨left, hleft, Binary64.le_trans hle hle'⟩

lemma Rises.fair {old new : Option PatternRow} (rises : Rises old new) : Fair old new := by
  intro row left hrow hleft _
  obtain ⟨found, hfound, hle⟩ := rises row hrow
  obtain rfl := Option.some.inj (hfound.symm.trans hleft)
  exact hle

lemma mergePattern_frequency (old new : PatternRow) :
    (mergePattern old new).frequency = new.frequency := rfl

/-- The row of a pattern that was put. -/
lemma putPattern_row {existing : Option Pattern} {p : Pattern} {change : Option PatternChange}
    (honest : store.faults.Honest) (confident : store.Confident) (unit : InUnit p.confidence)
    (h : store.putPattern existing p = .ok (after, change)) :
    after.Confident ∧ (∀ k, k ≠ p.id → after.getPattern? k = store.getPattern? k) ∧
      (after.getPattern? p.id = store.getPattern? p.id ∨
        ∃ left, after.getPattern? p.id = some left ∧
          left.confidence = Decimal.unsignedZero p.confidence ∧
          left.frequency = storedWord p.frequency) := by
  rcases putPattern_ok h honest with ⟨-, -, -, rfl, -⟩ | ⟨-, -, numbers, rfl⟩
  · exact ⟨confident, fun k _ => rfl, .inl rfl⟩
  · refine ⟨⟨keyed_patterns.nodup_put _ confident.nodup, ?_⟩, ?_, .inr ?_⟩
    · intro row hrow
      rcases mem_putRows hrow with hold | rfl | ⟨old, -, rfl⟩
      · exact confident.unit row hold
      · exact inUnit_unsignedZero unit
      · exact inUnit_unsignedZero unit
    · intro k hk
      rw [getPattern?_putRows, if_neg hk]
    · rw [getPattern?_putRows, if_pos rfl]
      cases store.getPattern? p.id with
      | none => exact ⟨p.freshRow, rfl, p.freshRow_confidence, p.freshRow_frequency⟩
      | some old =>
        exact ⟨mergePattern old p.freshRow, rfl,
          (mergePattern_confidence old _).trans p.freshRow_confidence,
          (mergePattern_frequency old _).trans p.freshRow_frequency⟩

/-! ## Computing anew -/

/-- What is read of a pattern is what its row says. -/
lemma readPattern?_row {p : Pattern} {row : PatternRow}
    (hread : store.readPattern? key = .ok (some p)) (hrow : store.getPattern? key = some row) :
    p.confidence = row.confidence ∧ p.frequency = readWord row.frequency := by
  obtain ⟨found, hfound, hp⟩ := readPattern?_eq_some.mp hread
  obtain rfl := Option.some.inj (hfound.symm.trans hrow)
  have h := (Pattern.ofRow_eq_ok_iff.mp hp).2.2.2
  exact ⟨congrArg Pattern.confidence h, congrArg Pattern.frequency h⟩

lemma Confident.read {p : Pattern} (confident : store.Confident)
    (hread : store.readPattern? key = .ok (some p)) : InUnit p.confidence := by
  obtain ⟨row, hrow, -⟩ := readPattern?_eq_some.mp hread
  rw [(readPattern?_row hread hrow).1]
  exact confident.lookup hrow

/-- The confidence of a pattern that is computed anew. As long as the frequency does not fall, it
is not below the one that was stored. -/
lemma renewedConfidence_fair {existing : Option Pattern}
    (finite : policy.confidence.bonus.isFinite = true)
    (unit : ∀ q, existing = some q → InUnit q.confidence) (frequency : Nat) (lastSeen : Int) :
    InUnit (renewedConfidence policy.confidence existing frequency lastSeen now) ∧
    ∀ q, existing = some q → q.frequency ≤ frequency →
      q.confidence ≤ renewedConfidence policy.confidence existing frequency lastSeen now := by
  have scored := ConfidencePolicy.inUnit_score finite frequency lastSeen now
  cases existing with
  | none => exact ⟨scored, by simp⟩
  | some previous =>
    have hprevious := unit previous rfl
    simp only [renewedConfidence]
    split
    · refine ⟨(ConfidencePolicy.le_corroborate hprevious scored).1, ?_⟩
      rintro q ⟨⟩ _
      exact ConfidencePolicy.previous_le_corroborate hprevious scored
    · next hfalls =>
      refine ⟨scored, ?_⟩
      rintro q ⟨⟩ hle
      exact absurd hle hfalls

theorem recomputePattern_fair {version : Nat} {content : Option PatternContent} {gained : Bool}
    {change : Option PatternChange} (finite : policy.confidence.bonus.isFinite = true)
    (honest : store.faults.Honest) (confident : store.Confident)
    (h : store.recomputePattern policy version now content gained key = .ok (after, change)) :
    after.Confident ∧ Fair (store.getPattern? key) (after.getPattern? key) := by
  obtain ⟨existing, hread, hcases⟩ := recomputePattern_cases h
  split at hcases
  · rcases hcases with ⟨-, rfl, -⟩ | ⟨p, rfl, hbury, -⟩
    · exact ⟨confident, confident.fair rfl⟩
    · obtain rfl := readPattern?_id hread
      obtain ⟨numbers, rfl⟩ := buryPattern_ok hbury honest
      refine ⟨⟨Table.nodup_filter _ _ _ confident.nodup, ?_⟩, ?_⟩
      · exact fun row hrow => confident.unit row (List.mem_filter.mp hrow).1
      · intro row left _ hleft
        rw [getPattern?_buried, if_pos rfl] at hleft
        cases hleft
  · next hpositive =>
    rcases hcases with ⟨-, -, rfl, -⟩ | ⟨p, candidate, -⟩
    · exact ⟨confident, confident.fair rfl⟩
    · rw [recomputePattern_eq_put hread hpositive candidate.content] at h
      have unit : ∀ q, existing = some q → InUnit q.confidence := by
        rintro q rfl
        exact confident.read hread
      generalize hq : store.renewed policy version now gained key existing p.content = q at h
      have hid : q.id = key := by rw [← hq]; rfl
      have hconfidence : q.confidence =
          renewedConfidence policy.confidence existing q.frequency q.lastSeen now := by
        rw [← hq]
        rfl
      obtain ⟨hunit, hkeeps⟩ := renewedConfidence_fair finite unit q.frequency q.lastSeen
      rw [← hconfidence] at hunit hkeeps
      subst hid
      obtain ⟨confident', -, hown⟩ := putPattern_row honest confident hunit h
      refine ⟨confident', ?_⟩
      rcases hown with hsame | ⟨left, hleft, hstored, hfrequency⟩
      · exact confident.fair hsame
      · intro row found hrow hfound hle
        obtain rfl := Option.some.inj (hleft.symm.trans hfound)
        obtain ⟨previous, rfl⟩ : ∃ previous, existing = some previous := by
          cases existing with
          | none =>
            rw [readPattern?_eq_none.mp hread] at hrow
            cases hrow
          | some previous => exact ⟨previous, rfl⟩
        obtain ⟨hsure, hseen⟩ := readPattern?_row hread hrow
        rw [hfrequency] at hle
        rw [hstored, ← hsure]
        refine le_unsignedZero (hkeeps previous rfl ?_)
        rw [hseen]
        exact hle.trans (readWord_storedWord_le _)

/-- Patterns that are computed anew one after another, each of them once. -/
theorem recompute_fair {version : Nat} {gained : List (String × PatternContent)}
    (hgained : ∀ k c, gained.lookup k = some c → c.id = k)
    (finite : policy.confidence.bonus.isFinite = true) {keys : List String}
    {before all : List PatternChange} (once : keys.Nodup) (honest : store.faults.Honest)
    (confident : store.Confident)
    (h : keys.foldlM (collecting fun store id => store.recomputePattern policy version now
      (gained.lookup id) (gained.lookup id).isSome id) (store, before) = .ok (after, all)) :
    after.Confident ∧ (∀ k, k ∉ keys → after.getPattern? k = store.getPattern? k) ∧
      ∀ k, Fair (store.getPattern? k) (after.getPattern? k) := by
  induction keys generalizing store before with
  | nil =>
    obtain ⟨rfl, -⟩ := Prod.mk.inj (pure_eq_ok.mp h)
    exact ⟨confident, fun k _ => rfl, fun k => confident.fair rfl⟩
  | cons key keys ih =>
    obtain ⟨hnew, once⟩ := List.nodup_cons.mp once
    simp only [List.foldlM_cons, collecting, bind_eq_ok, pure_eq_ok] at h
    obtain ⟨_, ⟨⟨mid, change⟩, hfirst, rfl⟩, hrest⟩ := h
    obtain ⟨confident', hown⟩ := recomputePattern_fair finite honest confident hfirst
    have hothers := recomputePattern_others honest hfirst
    have written := recomputePattern_written honest (hgained key) hfirst
    obtain ⟨confident'', hlater, hfair⟩ := ih once (written.honest honest) confident' hrest
    refine ⟨confident'', ?_, ?_⟩
    · intro k hk
      rw [List.mem_cons, not_or] at hk
      exact (hlater k hk.2).trans (hothers k hk.1)
    · intro k
      by_cases hk : k = key
      · subst hk
        rw [hlater k hnew]
        exact hown
      · rw [← hothers k hk]
        exact hfair k

theorem merge_fair {origin : Origin} {mode : LearningMode} {preceding : Nat}
    {steps : List MergeStep} {merged : Merged}
    (finite : policy.confidence.bonus.isFinite = true) (honest : store.faults.Honest)
    (confident : store.Confident)
    (h : store.merge policy origin mode preceding now steps = .ok merged) :
    merged.store.Confident ∧
      ∀ k, Fair (store.getPattern? k) (merged.store.getPattern? k) := by
  obtain ⟨state, final, changes, parts⟩ := merge_parts h honest
  obtain ⟨_, _, _, _, hstate⟩ := parts.effect.frame
  have hstart : state.store.patterns = store.patterns := by
    rw [hstate]
    rfl
  obtain ⟨confident', -, hfair⟩ := recompute_fair (fun k c => gained_content parts.effect) finite
    (nodup_sortedTexts _) (parts.effect.honest honest) (confident.congr hstart) parts.recompute
  refine ⟨confident'.congr parts.patterns, fun k => ?_⟩
  simpa only [getPattern?, hstart, parts.patterns] using hfair k

/-! ## Bringing in seeds -/

/-- The confidence that a seed brings in. -/
def seededConfidence (existing : Option Pattern) (seed : PatternSeed) : Float :=
  match existing with
  | some previous => ConfidencePolicy.corroborate previous.confidence seed.confidence
  | none => seed.confidence

/-- A seed is passed over, or a pattern is put with the confidence that it brings in. -/
lemma importSeed_eq_put {version : Nat} {seed : PatternSeed} {change : Option PatternChange}
    (h : store.importSeed policy version now seed = .ok (after, change)) :
    ∃ existing, store.readPattern? seed.content.id = .ok existing ∧
      (after = store ∨ ∃ p : Pattern, p.id = seed.content.id ∧
        p.confidence = seededConfidence existing seed ∧
        store.putPattern existing p = .ok (after, change)) := by
  simp only [importSeed, bind_eq_ok] at h
  obtain ⟨existing, hread, h⟩ := h
  refine ⟨existing, hread, ?_⟩
  split at h
  · obtain ⟨rfl, -⟩ := Prod.mk.inj (pure_eq_ok.mp h)
    exact .inl rfl
  · exact .inr ⟨_, rfl, rfl, h⟩

/-- A seed is weighed against what is stored, also when it comes with a lower frequency. -/
theorem importSeed_rises {version : Nat} {seed : PatternSeed} {change : Option PatternChange}
    (unit : InUnit seed.confidence) (honest : store.faults.Honest) (confident : store.Confident)
    (h : store.importSeed policy version now seed = .ok (after, change)) :
    after.Confident ∧ ∀ k, Rises (store.getPattern? k) (after.getPattern? k) := by
  obtain ⟨existing, hread, rfl | ⟨p, hid, hconfidence, hput⟩⟩ := importSeed_eq_put h
  · exact ⟨confident, fun k => confident.rises rfl⟩
  · have hboth : InUnit p.confidence ∧
        ∀ q, existing = some q → q.confidence ≤ p.confidence := by
      rw [hconfidence]
      cases existing with
      | none => exact ⟨unit, by simp⟩
      | some previous =>
        have hprevious := confident.read hread
        refine ⟨(ConfidencePolicy.le_corroborate hprevious unit).1, ?_⟩
        rintro q ⟨⟩
        exact ConfidencePolicy.previous_le_corroborate hprevious unit
    rw [← hid] at hread
    obtain ⟨confident', hothers, hown⟩ := putPattern_row honest confident hboth.1 hput
    refine ⟨confident', fun k => ?_⟩
    by_cases hk : k = p.id
    · subst hk
      rcases hown with hsame | ⟨left, hleft, hstored, -⟩
      · exact confident.rises hsame
      · intro row hrow
        obtain ⟨previous, hprevious⟩ : ∃ previous, existing = some previous := by
          cases existing with
          | none =>
            rw [readPattern?_eq_none.mp hread] at hrow
            cases hrow
          | some previous => exact ⟨previous, rfl⟩
        refine ⟨left, hleft, ?_⟩
        rw [hstored, ← (readPattern?_row (hprevious ▸ hread) hrow).1]
        exact le_unsignedZero (hboth.2 previous hprevious)
    · exact confident.rises (hothers k hk)

theorem importSeeds_rises {preceding : Nat} {seeds : List PatternSeed} {merged : Merged}
    (unit : ∀ seed ∈ seeds, InUnit seed.confidence) (honest : store.faults.Honest)
    (confident : store.Confident)
    (h : store.importSeeds policy preceding now seeds = .ok merged) :
    merged.store.Confident ∧
      ∀ k, Rises (store.getPattern? k) (merged.store.getPattern? k) := by
  obtain ⟨final, changes, parts⟩ := importSeeds_parts h honest
  have himports := parts.imports
  generalize ([] : List PatternChange) = before at himports
  have hfinal : final.Confident ∧ ∀ k, Rises (store.getPattern? k) (final.getPattern? k) := by
    clear parts h
    induction seeds generalizing store before with
    | nil =>
      obtain ⟨rfl, -⟩ := Prod.mk.inj (pure_eq_ok.mp himports)
      exact ⟨confident, fun k => confident.rises rfl⟩
    | cons seed seeds ih =>
      simp only [List.foldlM_cons, collecting, bind_eq_ok, pure_eq_ok] at himports
      obtain ⟨_, ⟨⟨mid, change⟩, hfirst, rfl⟩, hrest⟩ := himports
      obtain ⟨hseed, hseeds⟩ := List.forall_mem_cons.mp unit
      obtain ⟨confident', hrises⟩ := importSeed_rises hseed honest confident hfirst
      have written := importSeed_written honest hfirst
      obtain ⟨confident'', hmore⟩ := ih hseeds (written.honest honest) confident' _ hrest
      exact ⟨confident'', fun k => (hrises k).trans (hmore k)⟩
  refine ⟨hfinal.1.congr parts.patterns, fun k => ?_⟩
  simpa only [getPattern?, parts.patterns] using hfinal.2 k

end PatternStore

/-! ## Calls -/

namespace LearnerRequest

/-- Whether a request brings seeds in. -/
def isImport : LearnerRequest → Bool
  | learn .. => false
  | importSeeds _ => true

end LearnerRequest

namespace LearnerCall

variable {call : LearnerCall} {store : PatternStore}

/-- A call under settings without a mistake. -/
def Configured (call : LearnerCall) : Prop :=
  ∃ settings : Settings, settings.validate = .ok () ∧
    call.policy.confidence = settings.learning.confidencePolicy

lemma Configured.finite (configured : call.Configured) :
    call.policy.confidence.bonus.isFinite = true := by
  obtain ⟨settings, valid, hpolicy⟩ := configured
  rw [hpolicy]
  exact (settings.inUnit_bonus valid).finite

/-- What a call does to the stored confidences, whether it succeeds or not. -/
structure Decays (store after : PatternStore) (request : LearnerRequest) : Prop where
  confident : after.Confident
  fair : ∀ k, PatternStore.Fair (store.getPattern? k) (after.getPattern? k)
  rises : request.isImport = true →
    ∀ k, PatternStore.Rises (store.getPattern? k) (after.getPattern? k)

/-- The seeds of an import that comes to a merge were checked. -/
lemma merged?_checked {seeds : List PatternSeed} {merged : Merged}
    (request : call.request = .importSeeds seeds) (h : call.merged? store = some merged) :
    seeds.forM PatternSeed.check = .ok () := by
  unfold merged? LearnerRequest.merge? at h
  simp only [request] at h
  split at h
  · next hmerge =>
    split at hmerge
    · cases hmerge
    · next hcheck => exact hcheck
  · cases h
  · cases h

theorem perform_decays (configured : call.Configured) (confident : store.Confident)
    (projectId : String) :
    Decays store (call.perform projectId store).store call.request := by
  rw [call.perform_store]
  have confident' : (store.under call.faults).Confident := confident.congr rfl
  cases hmerged : call.merged? store with
  | none =>
    exact ⟨confident', fun k => confident.fair rfl, fun _ k => confident.rises rfl⟩
  | some merged =>
    rcases merged?_cases hmerged with
      ⟨sources, changes, origin, task, request, -, hmerge⟩ | ⟨seeds, request, himport⟩
    · obtain ⟨hconfident, hfair⟩ :=
        PatternStore.merge_fair configured.finite call.honest confident' hmerge
      refine ⟨hconfident, hfair, ?_⟩
      rw [request]
      exact nofun
    · have unit : ∀ seed ∈ seeds, Binary64.InUnit seed.confidence := fun seed hseed =>
        PatternSeed.inUnit_of_check
          (PatternSeed.check_of_forM (merged?_checked request hmerged) hseed)
      obtain ⟨hconfident, hrises⟩ :=
        PatternStore.importSeeds_rises unit call.honest confident' himport
      exact ⟨hconfident, fun k => (hrises k).fair, fun _ => hrises⟩

end LearnerCall

/-! ## Runs -/

namespace LearnerRun

open PatternStore

lemma run_confident {projectId : String} {store : PatternStore} {calls : List LearnerCall}
    (configured : ∀ call ∈ calls, call.Configured) (confident : store.Confident) :
    (run projectId store calls).Confident := by
  induction calls generalizing store with
  | nil => exact confident
  | cons call calls ih =>
    obtain ⟨hcall, hcalls⟩ := List.forall_mem_cons.mp configured
    exact ih hcalls (LearnerCall.perform_decays hcall confident projectId).confident

/-- Stored confidences lie between 0 and 1 in every run, whatever the clock says. Any further call
that keeps a pattern leaves it at least as sure as it was, unless the pattern has lost frequency in
a batch. -/
theorem run_decays (projectId : String) (calls : List LearnerCall)
    (configured : ∀ call ∈ calls, call.Configured) :
    (∀ row ∈ (run projectId .empty calls).patterns, 0 ≤ row.confidence ∧ row.confidence ≤ 1) ∧
    ∀ call : LearnerCall, call.Configured →
      ∀ row ∈ (run projectId .empty calls).patterns,
      ∀ left ∈ (call.perform projectId (run projectId .empty calls)).store.patterns,
        left.patternId = row.patternId →
        (readWord row.frequency ≤ readWord left.frequency ∨ call.request.isImport = true) →
        row.confidence ≤ left.confidence := by
  have confident : (run projectId .empty calls).Confident :=
    run_confident configured confident_empty
  refine ⟨fun row hrow => (confident.unit row hrow).bounds, ?_⟩
  intro call hcall row hrow left hleft hid hkept
  have decays := LearnerCall.perform_decays hcall confident projectId
  have hold : getPattern? (run projectId .empty calls) row.patternId = some row :=
    Table.lookup_of_mem PatternRow.patternId confident.nodup hrow
  have hnew : getPattern? (call.perform projectId (run projectId .empty calls)).store
      row.patternId = some left := by
    rw [← hid]
    exact Table.lookup_of_mem PatternRow.patternId decays.confident.nodup hleft
  rcases hkept with hfrequency | himport
  · exact decays.fair row.patternId row left hold hnew hfrequency
  · obtain ⟨found, hfound, hle⟩ := decays.rises himport row.patternId row hold
    obtain rfl := Option.some.inj (hfound.symm.trans hnew)
    exact hle

/-! A pattern that is brought in twice, the second time with less. -/

def sampleSettings : Settings :=
  { Settings.unset with
    learning := { LearningSettings.unset with
      recencyWindowDays := some 0, recencyBonus := some 0.1 } }

def sampleSeed (frequency : Nat) (confidence : Float) : LearnerCall :=
  sampleCall (.importSeeds [⟨.quotes .single, frequency, confidence, []⟩])

lemma sampleSeed_configured (frequency : Nat) (confidence : Float) :
    (sampleSeed frequency confidence).Configured :=
  ⟨sampleSettings, rfl, rfl⟩

lemma sampleSeed_rows :
    let rows := fun store : PatternStore =>
      store.patterns.map fun row => (row.patternId, row.frequency)
    rows (run "p" .empty [sampleSeed 5 0.75]) = [((PatternContent.quotes .single).id, 5)] ∧
      rows ((sampleSeed 2 0.5).perform "p" (run "p" .empty [sampleSeed 5 0.75])).store =
        [((PatternContent.quotes .single).id, 2)] := by
  decide +kernel

theorem sampleSeed_decays :
    ∃ row ∈ (run "p" .empty [sampleSeed 5 0.75]).patterns,
    ∃ left ∈ ((sampleSeed 2 0.5).perform "p" (run "p" .empty [sampleSeed 5 0.75])).store.patterns,
      left.patternId = row.patternId ∧ left.frequency < row.frequency ∧
      0 ≤ row.confidence ∧ row.confidence ≤ 1 ∧ row.confidence ≤ left.confidence := by
  have configured : ∀ call ∈ [sampleSeed 5 0.75], call.Configured :=
    List.forall_mem_singleton.mpr (sampleSeed_configured 5 0.75)
  obtain ⟨bounds, decays⟩ := run_decays "p" [sampleSeed 5 0.75] configured
  obtain ⟨hbefore, hafter⟩ := sampleSeed_rows
  obtain ⟨row, hrow, hold⟩ := List.mem_map.mp (hbefore ▸ List.mem_singleton_self _)
  obtain ⟨left, hleft, hnew⟩ := List.mem_map.mp (hafter ▸ List.mem_singleton_self _)
  obtain ⟨hrowId, hrowFrequency⟩ := Prod.mk.inj hold
  obtain ⟨hleftId, hleftFrequency⟩ := Prod.mk.inj hnew
  have hid : left.patternId = row.patternId := hleftId.trans hrowId.symm
  refine ⟨row, hrow, left, hleft, hid, by omega, (bounds row hrow).1, (bounds row hrow).2, ?_⟩
  exact decays (sampleSeed 2 0.5) (sampleSeed_configured 2 0.5) row hrow left hleft hid (.inr rfl)

end LearnerRun

end HouseStyle
