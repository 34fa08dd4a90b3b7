import HouseStyle.Proofs.Learning.View
import HouseStyle.Proofs.Pattern.Confidence

/-!
# Full and incremental learning agree

In full mode every stored pattern is computed anew. For one that the batch does not touch this
finds what is stored already. Its evidence is the same, and its confidence is at least what the
pattern scored at some time after it was last seen; since then scores have only faded.
-/

namespace HouseStyle

/-- The confidence of a pattern is at least its score at some time up to the clock. -/
structure Pattern.Upheld (p : Pattern) (policy : ConfidencePolicy) (clock : Int) : Prop where
  unit : Binary64.InUnit p.confidence
  scored : ∃ time, p.lastSeen ≤ time ∧ time ≤ clock ∧
    policy.score p.frequency p.lastSeen time ≤ p.confidence

namespace Pattern

variable {p q : Pattern} {policy : ConfidencePolicy} {clock : Int}

lemma Upheld.later {later : Int} (upheld : p.Upheld policy clock) (h : clock ≤ later) :
    p.Upheld policy later := by
  obtain ⟨unit, time, hseen, htime, hscore⟩ := upheld
  exact ⟨unit, time, hseen, by omega, hscore⟩

lemma Upheld.seen (upheld : p.Upheld policy clock) : p.lastSeen ≤ clock := by
  obtain ⟨-, time, hseen, htime, -⟩ := upheld
  omega

/-- No score from the clock on exceeds the confidence. -/
lemma Upheld.score_le (upheld : p.Upheld policy clock) (fades : policy.Fades) :
    policy.score p.frequency p.lastSeen clock ≤ p.confidence := by
  obtain ⟨-, time, hseen, htime, hscore⟩ := upheld
  exact Binary64.le_trans (fades _ _ time clock hseen htime) hscore

/-- A confidence is stored without the sign of a zero. -/
lemma Upheld.stored (upheld : p.Upheld policy clock) (hfrequency : q.frequency = p.frequency)
    (hseen : q.lastSeen = p.lastSeen)
    (hconfidence : q.confidence = Decimal.unsignedZero p.confidence) :
    q.Upheld policy clock := by
  obtain ⟨unit, time, hbefore, htime, hscore⟩ := upheld
  constructor
  · rw [hconfidence]
    exact inUnit_unsignedZero unit
  · rw [hfrequency, hseen, hconfidence]
    exact ⟨time, hbefore, htime, Binary64.le_unsignedZero hscore⟩

end Pattern

namespace PatternStore

variable {store after : PatternStore} {policy : LearningPolicy} {key : String} {now : Int}

/-! ## A pattern that is computed anew -/

/-- The time at which a pattern was last seen, when it is computed anew. -/
def renewedSeen (existing : Option Pattern) (gained : Bool) (now : Int) : Int :=
  match existing with
  | some previous => if gained then now else previous.lastSeen
  | none => now

/-- The confidence of a pattern that is computed anew. -/
def renewedConfidence (policy : ConfidencePolicy) (existing : Option Pattern) (frequency : Nat)
    (lastSeen now : Int) : Float :=
  let computed := policy.score frequency lastSeen now
  match existing with
  | some previous =>
    if previous.frequency ≤ frequency then
      ConfidencePolicy.corroborate previous.confidence computed
    else computed
  | none => computed

/-- The pattern that its evidence makes, from what is stored of it. -/
def renewed (store : PatternStore) (policy : LearningPolicy) (version : Nat) (now : Int)
    (gained : Bool) (id : String) (existing : Option Pattern) (content : PatternContent) :
    Pattern :=
  let baseline := (existing.map (·.baseline)).getD 0
  let frequency := addWords baseline (store.countForPattern id)
  let lastSeen := renewedSeen existing gained now
  { id
    category := content.category
    content
    frequency
    baseline
    confidence := renewedConfidence policy.confidence existing frequency lastSeen now
    contexts := store.contextsFor id
      (match existing with
        | some previous => if 0 < previous.baseline then previous.contexts else []
        | none => [])
    examples := store.readExamples id policy.examples
    version
    createdAt := (existing.map (·.createdAt)).getD now
    lastSeen }

/-- With any frequency, a pattern of which something is known is put as it is renewed. -/
lemma recomputePattern_eq_put {version : Nat} {content : Option PatternContent} {gained : Bool}
    {existing : Option Pattern} {known : PatternContent}
    (hread : store.readPattern? key = .ok existing)
    (hpositive : addWords ((existing.map (·.baseline)).getD 0) (store.countForPattern key) ≠ 0)
    (hknown : (existing.map (·.content)).or content = some known) :
    store.recomputePattern policy version now content gained key =
      store.putPattern existing
        (store.renewed policy version now gained key existing known) := by
  unfold recomputePattern
  rw [hread]
  change (if _ then _ else _) = _
  rw [if_neg hpositive]
  simp only [hknown]
  rfl

/-- What was computed anew is upheld, if what was stored is. -/
lemma upheld_renewed {version : Nat} {gained : Bool} {existing : Option Pattern}
    {content : PatternContent} (fades : policy.confidence.Fades)
    (upheld : ∀ q, existing = some q → q.Upheld policy.confidence now) :
    (store.renewed policy version now gained key existing content).Upheld
      policy.confidence now := by
  have hseen : renewedSeen existing gained now ≤ now := by
    unfold renewedSeen
    split
    · next previous =>
      split
      · exact Int.le_refl now
      · exact (upheld previous rfl).seen
    · exact Int.le_refl now
  generalize hp : store.renewed policy version now gained key existing content = p
  have hlast : p.lastSeen = renewedSeen existing gained now := by rw [← hp]; rfl
  have hconfidence : p.confidence =
      renewedConfidence policy.confidence existing p.frequency p.lastSeen now := by
    rw [← hp]
    rfl
  have scored := fades.inUnit_score p.frequency (hlast ▸ hseen)
  have hcomputed := Binary64.le_refl scored.number
  have hboth : Binary64.InUnit p.confidence ∧
      policy.confidence.score p.frequency p.lastSeen now ≤ p.confidence := by
    rw [hconfidence]
    unfold renewedConfidence
    simp only
    split
    · next previous =>
      split
      · exact ConfidencePolicy.le_corroborate (upheld previous rfl).unit scored
      · exact ⟨scored, hcomputed⟩
    · exact ⟨scored, hcomputed⟩
  exact ⟨hboth.1, now, hlast ▸ hseen, Int.le_refl now, hboth.2⟩

/-- The pattern under a key, if there is one, is upheld. -/
def Upholds (store : PatternStore) (policy : ConfidencePolicy) (clock : Int) (key : String) :
    Prop :=
  ∀ p, store.readPattern? key = .ok (some p) → p.Upheld policy clock

lemma readPattern?_congr (h : after.getPattern? key = store.getPattern? key) :
    after.readPattern? key = store.readPattern? key := by
  unfold readPattern?
  rw [h]

lemma Upholds.congr {clock : Int} (upholds : store.Upholds policy.confidence clock key)
    (h : after.getPattern? key = store.getPattern? key) :
    after.Upholds policy.confidence clock key := by
  unfold Upholds
  rw [readPattern?_congr h]
  exact upholds

lemma putPattern_upholds {existing : Option Pattern} {p : Pattern}
    {change : Option PatternChange} {clock : Int} (honest : store.faults.Honest)
    (hread : store.readPattern? p.id = .ok existing) (sound : ∀ e ∈ p.examples, e.Sound)
    (bound : p.frequency < Word.half) (upholds : store.Upholds policy.confidence clock p.id)
    (upheld : p.Upheld policy.confidence clock)
    (h : store.putPattern existing p = .ok (after, change)) :
    after.Upholds policy.confidence clock p.id := by
  rcases putPattern_ok h honest with ⟨-, -, -, rfl, -⟩ | ⟨-, -, numbers, rfl⟩
  · exact upholds
  · obtain ⟨r, hr, hfrequency, -, hconfidence, -, hseen⟩ :=
      readPattern?_putRows hread sound numbers
    intro p' hp'
    obtain rfl : r = p' := Option.some.inj (Except.ok.inj (hr.symm.trans hp'))
    exact upheld.stored (hfrequency.trans (Pattern.restored_frequency bound)) hseen hconfidence

lemma Ready.bound {imported : List String} {content : Option PatternContent}
    {existing : Option Pattern} (ready : store.Ready imported content key)
    (hread : store.readPattern? key = .ok existing) :
    (existing.map (·.baseline)).getD 0 + store.countForPattern key < Word.half := by
  cases existing with
  | none =>
    simp only [Ready, readPattern?_eq_none.mp hread] at ready
    simpa using ready.1
  | some q =>
    obtain ⟨row, hrow, hq⟩ := readPattern?_eq_some.mp hread
    simp only [Ready, hrow] at ready
    obtain ⟨q', hq', -, hbound, -⟩ := ready
    obtain rfl : q = q' := Except.ok.inj (hq.symm.trans hq')
    simpa using hbound

theorem recomputePattern_upholds {version : Nat} {content : Option PatternContent}
    {gained : Bool} {imported : List String} {change : Option PatternChange}
    (fades : policy.confidence.Fades) (honest : store.faults.Honest)
    (ready : store.Ready imported content key)
    (upholds : store.Upholds policy.confidence now key)
    (h : store.recomputePattern policy version now content gained key = .ok (after, change)) :
    after.Upholds policy.confidence now key := by
  obtain ⟨existing, hread, hcases⟩ := recomputePattern_cases h
  split at hcases
  · rcases hcases with ⟨rfl, rfl, -⟩ | ⟨p, rfl, hbury, -⟩
    · exact upholds
    · obtain rfl := readPattern?_id hread
      obtain ⟨numbers, rfl⟩ := buryPattern_ok hbury honest
      have hgone : ∀ row ∈ store.patterns.filter (fun row => !(row.patternId == p.id)),
          row.patternId ≠ p.id := by simp
      intro r hr
      obtain ⟨row, hrow, -⟩ := readPattern?_eq_some.mp hr
      obtain ⟨hmem, hid⟩ := Table.mem_of_lookup PatternRow.patternId hrow
      exact absurd hid (hgone row hmem)
  · next hpositive =>
    rcases hcases with ⟨rfl, rfl, rfl, -⟩ | ⟨p, candidate, -⟩
    · exact upholds
    · rw [recomputePattern_eq_put hread hpositive candidate.content] at h
      have upheld : (store.renewed policy version now gained key existing p.content).Upheld
          policy.confidence now :=
        upheld_renewed fades fun q hq => upholds q (hq ▸ hread)
      generalize hq : store.renewed policy version now gained key existing p.content = q
        at h upheld
      have hid : q.id = key := by rw [← hq]; rfl
      have hfrequency : q.frequency =
          addWords ((existing.map (·.baseline)).getD 0) (store.countForPattern key) := by
        rw [← hq]
        rfl
      have hexamples : q.examples = store.readExamples key policy.examples := by rw [← hq]; rfl
      subst hid
      refine putPattern_upholds honest hread ?_ ?_ upholds upheld h
      · rw [hexamples]
        exact fun e => readExamples_sound
      · have bound := ready.bound hread
        rw [hfrequency, addWords_of_lt bound]
        exact bound

/-! ## Runs that only learn -/

lemma recompute_upholds {version : Nat} {imported : List String}
    {gained : List (String × PatternContent)}
    (hgained : ∀ k c, gained.lookup k = some c → c.id = k) (fades : policy.confidence.Fades)
    {keys : List String} {before all : List PatternChange} (honest : store.faults.Honest)
    (ready : ∀ k, store.Ready imported (gained.lookup k) k)
    (upholds : ∀ k, store.Upholds policy.confidence now k)
    (h : keys.foldlM (collecting fun store id => store.recomputePattern policy version now
      (gained.lookup id) (gained.lookup id).isSome id) (store, before) = .ok (after, all)) :
    ∀ k, after.Upholds policy.confidence now k := by
  induction keys generalizing store before with
  | nil =>
    obtain ⟨rfl, rfl⟩ := Prod.mk.inj (pure_eq_ok.mp h)
    exact upholds
  | cons key keys ih =>
    simp only [List.foldlM_cons, collecting, bind_eq_ok, pure_eq_ok] at h
    obtain ⟨_, ⟨⟨mid, change⟩, hfirst, rfl⟩, hrest⟩ := h
    have hwritten := recomputePattern_written honest (hgained key) hfirst
    obtain ⟨hown, hothers⟩ := recomputePattern_current honest (ready key) hfirst
    have upheld := recomputePattern_upholds fades honest (ready key) (upholds key) hfirst
    refine ih (hwritten.honest honest) ?_ ?_ hrest
    · intro k
      by_cases hk : k = key
      · exact hk ▸ hown.ready _
      · exact (hwritten.showsAlike k).ready (hothers k hk) (ready k)
    · intro k
      by_cases hk : k = key
      · exact hk ▸ upheld
      · exact (upholds k).congr (hothers k hk)

theorem merge_upholds {origin : Origin} {mode : LearningMode} {preceding : Nat}
    {steps : List MergeStep} {merged : Merged} {imported : List String}
    (fades : policy.confidence.Fades) (inv : store.Invariant policy imported)
    (honest : store.faults.Honest)
    (bound : ∀ k, store.baselineOf k + merged.store.countForPattern k < Word.half)
    (upholds : ∀ k, store.Upholds policy.confidence now k)
    (h : store.merge policy origin mode preceding now steps = .ok merged) :
    ∀ k, merged.store.Upholds policy.confidence now k := by
  obtain ⟨state, final, changes, parts⟩ := merge_parts h honest
  obtain ⟨_, _, _, _, hstate⟩ := parts.effect.frame
  have hstart : ∀ k, state.store.getPattern? k = store.getPattern? k := by
    intro k
    rw [hstate]
    rfl
  have hbound : ∀ k, store.baselineOf k + state.store.countForPattern k < Word.half := by
    intro k
    have := bound k
    simpa only [countForPattern, parts.evidence] using this
  have upheld := recompute_upholds (fun k c => gained_content parts.effect) fades
    (parts.effect.honest honest) (steps_ready inv.current parts.effect hbound)
    (fun k => (upholds k).congr (hstart k)) parts.recompute
  intro k
  exact (upheld k).congr (by simp only [getPattern?, parts.patterns])

/-- A store between two calls that learn: its patterns are a view of the evidence, and they are
upheld. -/
structure Learnt (store : PatternStore) (policy : LearningPolicy) (clock : Int) : Prop where
  view : store.Invariant policy []
  upholds : ∀ k, store.Upholds policy.confidence clock k

lemma learnt_empty (policy : LearningPolicy) (clock : Int) : empty.Learnt policy clock where
  view := invariant_empty policy
  upholds := by
    intro k p hp
    obtain ⟨row, hrow, -⟩ := readPattern?_eq_some.mp hp
    cases hrow

lemma Learnt.later {clock later : Int} (learnt : store.Learnt policy clock)
    (h : clock ≤ later) : store.Learnt policy later :=
  ⟨learnt.view, fun k p hp => (learnt.upholds k p hp).later h⟩

lemma Learnt.under {clock : Int} (learnt : store.Learnt policy clock) (faults : Faults) :
    (store.under faults).Learnt policy clock :=
  ⟨learnt.view.congr rfl rfl rfl rfl, fun k => (learnt.upholds k).congr rfl⟩

end PatternStore

/-- A call that learns a batch. -/
def LearnerCall.Learns (call : LearnerCall) : Prop :=
  ∃ sources changes origin, call.request = .learn sources changes origin

namespace LearnerRun

open PatternStore

variable {policy : LearningPolicy} {projectId : String} {clock : Int}

theorem perform_learnt {store : PatternStore} {call : LearnerCall}
    (fades : call.policy.confidence.Fades) (learns : call.Learns)
    (learnt : store.Learnt call.policy call.now) (fits : call.Fits store) :
    (call.perform projectId store).store.Learnt call.policy call.now := by
  obtain ⟨sources, changes, origin, hlearn⟩ := learns
  constructor
  · have := perform_invariant projectId learnt.view fits
    rwa [hlearn] at this
  · rw [call.perform_store]
    have before := learnt.under call.faults
    cases hmerged : call.merged? store with
    | none => exact before.upholds
    | some merged =>
      have bound := fits merged hmerged
      rcases LearnerCall.merged?_cases hmerged with
        ⟨_, _, _, task, -, -, hmerge⟩ | ⟨seeds, himport, -⟩
      · simp only [hlearn] at bound
        exact merge_upholds fades before.view call.honest bound before.upholds hmerge
      · rw [hlearn] at himport
        cases himport

theorem run_learnt {store : PatternStore} {calls : List LearnerCall}
    (fades : policy.confidence.Fades) (one : ∀ call ∈ calls, call.policy = policy)
    (learns : ∀ call ∈ calls, call.Learns)
    (forward : (clock :: calls.map (·.now)).Pairwise (· ≤ ·)) (learnt : store.Learnt policy clock)
    (fits : ∀ step ∈ trace projectId store calls, step.2.Fits step.1) {last : Int}
    (hlast : ∀ time ∈ clock :: calls.map (·.now), time ≤ last) :
    (run projectId store calls).Learnt policy last := by
  induction calls generalizing store clock with
  | nil => exact learnt.later (hlast clock (by simp))
  | cons call calls ih =>
    obtain rfl := one call (by simp)
    obtain ⟨hclock, hrest⟩ := List.pairwise_cons.mp forward
    have first : (call.perform projectId store).store.Learnt call.policy call.now :=
      perform_learnt fades (learns call (by simp))
        (learnt.later (hclock call.now (by simp))) (fits (store, call) (by simp [trace]))
    exact ih (fun later hlater => one later (by simp [hlater]))
      (fun later hlater => learns later (by simp [hlater])) hrest first
      (fun step hstep => fits step (by simp [trace, hstep]))
      (fun time htime => hlast time (List.mem_cons_of_mem _ htime))

end LearnerRun

/-! ## What a batch leaves alone -/

namespace MergeState

variable {state after : MergeState} {now : Int}

/-- What a batch has seen, it has touched. -/
def Touching (state : MergeState) : Prop := ∀ entry ∈ state.gained, entry.1 ∈ state.touched

lemma step_touching (honest : state.store.faults.Honest) (touching : state.Touching)
    {step : MergeStep} (h : MergeState.step now state step = .ok after) : after.Touching := by
  intro entry hentry
  cases step with
  | examine path revision reading =>
    cases reading with
    | analyzed analysis =>
      obtain ⟨-, htouched, hgained, -⟩ := examine_ok honest h
      rw [hgained] at hentry
      rw [htouched]
      rcases List.mem_append.mp hentry with hold | hnew
      · exact List.mem_append_left _ (List.mem_append_left _ (touching entry hold))
      · exact List.mem_append_right _ (List.mem_map_of_mem hnew)
    | unchanged => cases h; exact touching entry hentry
    | failed => cases h; exact touching entry hentry
  | delete path =>
    obtain ⟨-, htouched, hgained, -⟩ := delete_ok honest h
    rw [hgained] at hentry
    rw [htouched]
    exact List.mem_append_left _ (touching entry hentry)
  | rename source target revision =>
    obtain ⟨-, htouched, hgained, -⟩ := rename_ok honest h
    rw [hgained] at hentry
    rw [htouched]
    exact List.mem_append_left _ (List.mem_append_left _ (touching entry hentry))

lemma steps_touching {steps : List MergeStep} (honest : state.store.faults.Honest)
    (touching : state.Touching) (h : steps.foldlM (MergeState.step now) state = .ok after) :
    after.Touching := by
  induction steps generalizing state with
  | nil => cases h; exact touching
  | cons step steps ih =>
    rw [List.foldlM_cons, bind_eq_ok] at h
    obtain ⟨mid, hstep, hrest⟩ := h
    exact ih ((step_effect honest hstep).honest honest) (step_touching honest touching hstep) hrest

lemma Touching.lookup (touching : state.Touching) {key : String} (h : key ∉ state.touched) :
    state.gained.lookup key = none := by
  cases hfound : state.gained.lookup key with
  | none => rfl
  | some content => exact absurd (touching _ (PatternStore.lookup_gained hfound)) h

end MergeState

namespace PatternStore

variable {store after : PatternStore} {policy : LearningPolicy} {key : String} {now : Int}

/-- The pattern under a key is stored as its evidence would make it at any time from now on. -/
def Still (store : PatternStore) (policy : LearningPolicy) (now : Int) (key : String) : Prop :=
  ∃ p, store.readPattern? key = .ok (some p) ∧ store.Fitting policy [] key p ∧
    p.Upheld policy.confidence now

lemma Still.congr (still : store.Still policy now key)
    (hrow : after.getPattern? key = store.getPattern? key) (alike : ShowsAlike store after key) :
    after.Still policy now key := by
  obtain ⟨p, hp, fits, upheld⟩ := still
  exact ⟨p, (readPattern?_congr hrow).trans hp, alike.fitting fits, upheld⟩

/-- Computing such a pattern anew changes nothing. -/
theorem Still.recompute {version : Nat} (still : store.Still policy now key)
    (fades : policy.confidence.Fades) :
    store.recomputePattern policy version now none false key = .ok (store, none) := by
  obtain ⟨p, hread, fits, upheld⟩ := still
  have hbaseline : p.baseline = 0 := fits.baseline List.not_mem_nil
  have hfrequency : addWords p.baseline (store.countForPattern key) = p.frequency := by
    have hsum := fits.frequency
    have hbound := fits.bounded
    rw [addWords_of_lt (by omega), hsum]
  have hpositive : addWords p.baseline (store.countForPattern key) ≠ 0 := by
    have := fits.positive
    omega
  have hknown : ((some p).map (·.content)).or none = some p.content := rfl
  rw [recomputePattern_eq_put hread hpositive hknown]
  generalize hq : store.renewed policy version now false key (some p) p.content = q
  have same : q.frequency = p.frequency ∧ q.baseline = p.baseline ∧
      q.examples = p.examples ∧ q.lastSeen = p.lastSeen := by
    rw [← hq]
    exact ⟨hfrequency, rfl, fits.examples.symm, rfl⟩
  obtain ⟨hsame, hsameBaseline, hexamples, hseen⟩ := same
  have hcontexts : q.contexts = p.contexts := by
    rw [← hq, fits.contexts List.not_mem_nil]
    simp [renewed, hbaseline]
  have hconfidence : q.confidence = p.confidence := by
    have hrenewed : q.confidence = renewedConfidence policy.confidence (some p) q.frequency
        q.lastSeen now := by
      rw [← hq]
      rfl
    rw [hrenewed, hsame, hseen, renewedConfidence]
    simp only [Nat.le_refl, if_true]
    exact ConfidencePolicy.corroborate_of_le upheld.unit (upheld.score_le fades)
  have hderived : p.sameDerived q = true := by
    simp only [Pattern.sameDerived, Pattern.sameConfidence, hsame, hsameBaseline, hconfidence,
      hcontexts, hexamples, hseen, Binary64.beq_self upheld.unit.number, beq_self_eq_true,
      Bool.and_self]
  simp only [putPattern, hderived, if_true]

/-- Patterns that are still may be left out when patterns are computed anew. -/
theorem recompute_filter {version : Nat} {gained : List (String × PatternContent)}
    {touched : List String} (fades : policy.confidence.Fades)
    (hgained : ∀ k c, gained.lookup k = some c → c.id = k)
    (unseen : ∀ k ∉ touched, gained.lookup k = none) {keys : List String}
    {before : List PatternChange} (honest : store.faults.Honest)
    (still : ∀ k ∈ keys, k ∉ touched → store.Still policy now k) :
    keys.foldlM (collecting fun store id => store.recomputePattern policy version now
        (gained.lookup id) (gained.lookup id).isSome id) (store, before) =
      (keys.filter (· ∈ touched)).foldlM (collecting fun store id =>
        store.recomputePattern policy version now
          (gained.lookup id) (gained.lookup id).isSome id) (store, before) := by
  induction keys generalizing store before with
  | nil => rfl
  | cons key keys ih =>
    by_cases hkey : key ∈ touched
    · rw [List.filter_cons_of_pos (by simpa using hkey), List.foldlM_cons, List.foldlM_cons]
      cases hfirst : collecting (fun store id => store.recomputePattern policy version now
        (gained.lookup id) (gained.lookup id).isSome id) (store, before) key with
      | error error => rfl
      | ok progress =>
        simp only [collecting, bind_eq_ok, pure_eq_ok] at hfirst
        obtain ⟨⟨mid, change⟩, hmid, rfl⟩ := hfirst
        have hwritten := recomputePattern_written honest (hgained key) hmid
        refine ih (hwritten.honest honest) ?_
        intro k hk hfree
        have hne : k ≠ key := fun heq => hfree (heq ▸ hkey)
        exact (still k (List.mem_cons_of_mem _ hk) hfree).congr
          (recomputePattern_others honest hmid k hne) (hwritten.showsAlike k)
    · have hidle : collecting (fun store id => store.recomputePattern policy version now
          (gained.lookup id) (gained.lookup id).isSome id) (store, before) key =
          .ok (store, before) := by
        simp only [collecting, unseen key hkey, Option.isSome_none,
          (still key (by simp) hkey).recompute fades, bind, Except.bind, pure, Except.pure,
          Option.toList_none, List.append_nil]
      rw [List.filter_cons_of_neg (by simpa using hkey), List.foldlM_cons, hidle]
      exact ih honest fun k hk => still k (List.mem_cons_of_mem _ hk)

/-! ## Merges in two modes -/

lemma recompute_eq (state : MergeState) (mode : LearningMode) (version : Nat) :
    state.recompute policy mode version now =
      (state.toRecompute mode).foldlM (collecting fun store id =>
        store.recomputePattern policy version now (state.gained.lookup id)
          (state.gained.lookup id).isSome id) (state.store, []) := rfl

/-- After the steps of a batch it does not matter whether all patterns are computed anew. -/
theorem recompute_modes {state : MergeState} {steps : List MergeStep} {version : Nat}
    (fades : policy.confidence.Fades) (honest : store.faults.Honest)
    (learnt : store.Learnt policy now)
    (h : steps.foldlM (MergeState.step now) (.start store) = .ok state) :
    state.recompute policy .full version now = state.recompute policy .incremental version now := by
  have effect := MergeState.steps_effect honest h
  have hnothing : (MergeState.start store).Touching := fun _ hentry => nomatch hentry
  have touching := MergeState.steps_touching honest hnothing h
  obtain ⟨_, _, _, _, hstate⟩ := effect.frame
  have hpatterns : state.store.patterns = store.patterns := by rw [hstate]; rfl
  have still : ∀ k ∈ state.toRecompute .full, k ∉ state.touched →
      state.store.Still policy now k := by
    intro k hk hfree
    have hstored : k ∈ store.patterns.map (·.patternId) := by
      rw [← hpatterns]
      exact (List.mem_append.mp (mem_sortedTexts.mp hk)).resolve_left hfree
    obtain ⟨row, hrow, rfl⟩ := List.mem_map.mp hstored
    have hfound : store.getPattern? row.patternId = some row :=
      Table.lookup_of_mem _ learnt.view.nodup hrow
    have current := learnt.view.current row.patternId
    simp only [Current, hfound] at current
    obtain ⟨p, hp, fits⟩ := current
    have hread : store.readPattern? row.patternId = .ok (some p) :=
      readPattern?_eq_some.mpr ⟨row, hfound, hp⟩
    have alike : ShowsAlike store state.store row.patternId :=
      ⟨effect.evidence _ hfree, effect.files _ hfree⟩
    have hsame : state.store.getPattern? row.patternId = store.getPattern? row.patternId := by
      simp only [getPattern?, hpatterns]
    exact Still.congr ⟨p, hread, fits, learnt.upholds _ p hread⟩ hsame alike
  have hincremental :
      (state.toRecompute .full).filter (· ∈ state.touched) = state.toRecompute .incremental := by
    simp only [MergeState.toRecompute, filter_sortedTexts_append, List.append_nil]
  rw [recompute_eq, recompute_eq, recompute_filter fades (fun k c => gained_content effect)
    (fun k => touching.lookup) (effect.honest honest) still, hincremental]

end PatternStore

/-- A delta's row without its mode. -/
def DeltaRow.withoutMode (row : DeltaRow) : DeltaRow := { row with mode := "" }

/-- Two answers that say the same but for the mode of a delta: both stores have the same version
and the same tables, where the deltas in the log may differ in their modes. -/
structure Learned.SameButMode (a b : Learned) : Prop where
  store : a.store = { b.store with deltas := a.store.deltas }
  deltas : a.store.deltas.map (·.withoutMode) = b.store.deltas.map (·.withoutMode)
  result : a.result.map (fun delta => { delta with mode := .skip }) =
    b.result.map fun delta => { delta with mode := .skip }
  events : a.events = b.events

/-- The same of two merges that went through. -/
structure Merged.SameButMode (a b : Merged) : Prop where
  store : a.store = { b.store with deltas := a.store.deltas }
  deltas : a.store.deltas.map (·.withoutMode) = b.store.deltas.map (·.withoutMode)
  delta : b.delta = { a.delta with mode := b.delta.mode }
  changes : a.changes = b.changes

/-- Two merges fail with the same error, or they go through and differ in the mode only. -/
inductive Merged.SameOutcome : Except StorageError Merged → Except StorageError Merged → Prop where
  | failed (error : StorageError) : SameOutcome (.error error) (.error error)
  | merged {a b : Merged} : a.SameButMode b → SameOutcome (.ok a) (.ok b)

namespace PatternStore

variable {store after : PatternStore} {policy : LearningPolicy} {now : Int}

/-- Nothing else of a delta's row matters to its insertion than its version and its id. -/
lemma insertDelta_rows {row other : DeltaRow} (honest : store.faults.Honest)
    (hversion : other.resultingVersion = row.resultingVersion) (hid : other.id = row.id) :
    (∃ error, store.insertDelta row = .error error ∧ store.insertDelta other = .error error) ∨
    ∃ numbers,
      store.insertDelta row = .ok { store with deltas := store.deltas ++ [row], numbers } ∧
      store.insertDelta other = .ok { store with deltas := store.deltas ++ [other], numbers } := by
  unfold insertDelta
  rw [hversion, hid]
  cases hallows : store.faults.allows .learningDeltas .insert with
  | error error => exact .inl ⟨error, rfl, rfl⟩
  | ok allowed =>
    obtain rfl := honest.allows hallows
    by_cases hsame : store.deltas.any (·.resultingVersion == row.resultingVersion) = true
    · simp only [hsame, if_true]
      exact .inl ⟨_, rfl, rfl⟩
    · by_cases hknown : store.deltas.any (·.id == row.id) = true
      · simp only [hsame, hknown, if_true, if_false, Bool.false_eq_true]
        exact .inl ⟨_, rfl, rfl⟩
      · simp only [hsame, hknown, if_false, Bool.false_eq_true]
        exact .inr ⟨_, rfl, rfl⟩

lemma insertOperation_withDeltas (deltas : List DeltaRow) (row : OperationRow) :
    insertOperation { store with deltas } row =
      (store.insertOperation row).map fun after => { after with deltas } := by
  unfold insertOperation
  cases store.faults.allows .deltaOperations .insert with
  | error error => rfl
  | ok allowed =>
    cases allowed with
    | false => rfl
    | true =>
      simp only
      split
      · rfl
      · split <;> rfl

/-- The deltas make no difference to the operations that are logged. -/
lemma logChanges_withDeltas (deltas : List DeltaRow) (version seq : Nat)
    (changes : List PatternChange) :
    logChanges { store with deltas } version seq changes =
      (store.logChanges version seq changes).map fun after => { after with deltas } := by
  induction changes generalizing store seq with
  | nil => rfl
  | cons change changes ih =>
    simp only [logChanges, insertOperation_withDeltas]
    cases store.insertOperation (change.toRow version seq) with
    | error error => rfl
    | ok mid => exact ih (seq + 1)

/-- Two deltas that differ in the mode only are logged alike. -/
lemma log_modes {delta other : LearningDelta} (hother : other = { delta with mode := other.mode })
    (version : Nat) (changes : List PatternChange) (honest : store.faults.Honest) :
    Merged.SameOutcome
      (do
        let store ← store.insertDelta delta.toRow
        let store ← store.logChanges version 0 changes
        return ⟨store, delta, changes⟩)
      (do
        let store ← store.insertDelta other.toRow
        let store ← store.logChanges version 0 changes
        return ⟨store, other, changes⟩) := by
  have hversion : other.toRow.resultingVersion = delta.toRow.resultingVersion := by
    rw [LearningDelta.toRow_version, LearningDelta.toRow_version, hother]
  have hid : other.toRow.id = delta.toRow.id := by
    rw [LearningDelta.toRow_id, LearningDelta.toRow_id, hother]
  have hmode : delta.toRow.withoutMode = other.toRow.withoutMode := by
    rw [hother]
    simp only [DeltaRow.withoutMode, LearningDelta.toRow]
  rcases insertDelta_rows honest hversion hid with
    ⟨error, hfirst, hsecond⟩ | ⟨numbers, hfirst, hsecond⟩
  · rw [hfirst, hsecond]
    exact .failed error
  · rw [hfirst, hsecond]
    let first : PatternStore := { store with deltas := store.deltas ++ [delta.toRow], numbers }
    have hlogged := first.logChanges_withDeltas (store.deltas ++ [other.toRow]) version 0 changes
    change Merged.SameOutcome (first.logChanges version 0 changes >>= _)
      (logChanges { first with deltas := store.deltas ++ [other.toRow] } version 0 changes >>= _)
    rw [hlogged]
    cases hchanges : first.logChanges version 0 changes with
    | error error => exact .failed error
    | ok after =>
      obtain ⟨_, rfl⟩ := logChanges_ok hchanges honest
      refine .merged ⟨rfl, ?_, hother, rfl⟩
      change (store.deltas ++ [delta.toRow]).map _ = (store.deltas ++ [other.toRow]).map _
      simp only [List.map_append, List.map_singleton, hmode]

/-- Commits of one delta in two modes. -/
lemma commit_modes {delta other : LearningDelta}
    (hother : other = { delta with mode := other.mode }) (changes : List PatternChange)
    (honest : store.faults.Honest) :
    Merged.SameOutcome (store.commit delta changes) (store.commit other changes) := by
  rw [hother]
  by_cases hidle : delta.filesTouched = 0 ∧ changes.isEmpty
  · simp only [commit, hidle, and_self, if_true]
    exact .merged ⟨rfl, rfl, rfl, rfl⟩
  · simp only [commit, if_neg hidle]
    cases hadvance : store.advanceVersion (storedWord delta.precedingVersion)
        (storedWord (delta.precedingVersion + 1)) with
    | error error => exact .failed error
    | ok moved =>
      obtain ⟨-, rfl⟩ := advanceVersion_ok hadvance honest
      exact log_modes rfl _ changes honest

/-- A merge in full mode and one in incremental mode differ in the mode only. -/
theorem merge_modes (fades : policy.confidence.Fades) (honest : store.faults.Honest)
    (learnt : store.Learnt policy now) (origin : Origin) (preceding : Nat)
    (steps : List MergeStep) :
    Merged.SameOutcome (store.merge policy origin .full preceding now steps)
      (store.merge policy origin .incremental preceding now steps) := by
  simp only [merge]
  cases store.requireVersion preceding with
  | error error => exact .failed error
  | ok =>
    cases hsteps : steps.foldlM (MergeState.step now) (.start store) with
    | error error => exact .failed error
    | ok state =>
      have effect := MergeState.steps_effect honest hsteps
      have hsame : state.recompute policy .full (preceding + 1) now =
          state.recompute policy .incremental (preceding + 1) now :=
        recompute_modes fades honest learnt hsteps
      simp only [bind, Except.bind, hsame]
      cases hrecompute : state.recompute policy .incremental (preceding + 1) now with
      | error error => exact .failed error
      | ok result =>
        obtain ⟨final, changes⟩ := result
        obtain ⟨_, -, writes⟩ := collecting_writes
          (fun k _ s t change hs ht => recomputePattern_written hs
            (fun c => gained_content effect) ht) (effect.honest honest) hrecompute
        exact commit_modes rfl changes (writes.honest (effect.honest honest))

end PatternStore

/-! ## Batches in two modes -/

lemma Merged.SameButMode.events {a b : Merged} (same : a.SameButMode b) (projectId : String) :
    a.events projectId = b.events projectId := by
  unfold Merged.events
  rw [same.changes, same.delta]
  rfl

lemma Learned.ofMerge_modes {x y : Except StorageError Merged} (store : PatternStore)
    (projectId : String) (preceding : Nat) (same : Merged.SameOutcome x y) :
    (ofMerge store projectId preceding x).SameButMode (ofMerge store projectId preceding y) := by
  cases same with
  | failed error => exact ⟨rfl, rfl, rfl, rfl⟩
  | merged same =>
    refine ⟨same.store, same.deltas, ?_, same.events projectId⟩
    simp only [ofMerge, Except.map]
    rw [same.delta]

/-- The same steps are merged, whatever the mode. -/
theorem LearningTask.finish_modes {policy : LearningPolicy} {store : PatternStore} {now : Int}
    (fades : policy.confidence.Fades) (honest : store.faults.Honest)
    (learnt : store.Learnt policy now) (task : LearningTask) (sources : Sources)
    (projectId : String) :
    ({ task with mode := .full }.finish policy sources projectId now store).SameButMode
      ({ task with mode := .incremental }.finish policy sources projectId now store) := by
  have hsteps : ∀ mode, ({ task with mode } : LearningTask).steps sources =
      task.steps sources := fun _ => rfl
  simp only [finish, merge, hsteps]
  split
  · exact ⟨rfl, rfl, rfl, rfl⟩
  · split
    · exact Learned.ofMerge_modes store projectId task.version
        (PatternStore.merge_modes fades honest learnt task.origin task.version _)
    · exact ⟨rfl, rfl, rfl, rfl⟩

namespace LearnerRun

open PatternStore

/-- What a run leaves that learns batches under one configuration, while the clock does not go
back. -/
lemma run_learnt_empty (fades : policy.confidence.Fades) {calls : List LearnerCall}
    (one : ∀ call ∈ calls, call.policy = policy) (learns : ∀ call ∈ calls, call.Learns)
    (forward : (calls.map (·.now)).Pairwise (· ≤ ·))
    (fits : ∀ step ∈ trace projectId .empty calls, step.2.Fits step.1) {now : Int}
    (later : ∀ call ∈ calls, call.now ≤ now) :
    (run projectId .empty calls).Learnt policy now := by
  cases calls with
  | nil => exact learnt_empty policy now
  | cons call calls =>
    obtain ⟨hfirst, -⟩ := List.pairwise_cons.mp forward
    have hclock : ∀ time ∈ (call :: calls).map (·.now), call.now ≤ time :=
      List.forall_mem_cons.mpr ⟨Int.le_refl _, hfirst⟩
    have hlater : ∀ time ∈ (call :: calls).map (·.now), time ≤ now :=
      List.forall_mem_map.mpr later
    exact run_learnt fades one learns (List.pairwise_cons.mpr ⟨hclock, forward⟩)
      (learnt_empty policy call.now) fits
      (List.forall_mem_cons.mpr ⟨hlater _ (by simp), hlater⟩)

/-- After any run that learns batches under one configuration, while the clock does not go back,
it makes no difference to any further batch whether it is learned in full or only as far as it
reaches, but for the mode in its delta. -/
theorem run_modes {policy : LearningPolicy} (fades : policy.confidence.Fades) (projectId : String)
    (calls : List LearnerCall) (one : ∀ call ∈ calls, call.policy = policy)
    (learns : ∀ call ∈ calls, call.Learns)
    (forward : (calls.map (·.now)).Pairwise (· ≤ ·))
    (fits : ∀ step ∈ trace projectId .empty calls, step.2.Fits step.1)
    {now : Int} (later : ∀ call ∈ calls, call.now ≤ now) {faults : Faults}
    (honest : faults.Honest) (task : LearningTask) (sources : Sources) :
    let store := (run projectId .empty calls).under faults
    ({ task with mode := .full }.finish policy sources projectId now store).SameButMode
      ({ task with mode := .incremental }.finish policy sources projectId now store) := by
  intro store
  have learnt : (run projectId .empty calls).Learnt policy now :=
    run_learnt_empty fades one learns forward fits later
  exact task.finish_modes fades honest (learnt.under faults) sources projectId

/-! A project that has learned one file, without a bonus for recent sightings, and what the file
says next. -/

def sampleSteadyPolicy : LearningPolicy := ⟨0.5, 3, 10, ⟨604800, 0⟩⟩

lemma sampleSteadyPolicy_fades : sampleSteadyPolicy.confidence.Fades :=
  ConfidencePolicy.fades_of_no_bonus ⟨.positive, rfl⟩

def sampleSteadyLearn : LearnerCall := { sampleLearn with policy := sampleSteadyPolicy }

lemma sampleSteadyLearn_fits : sampleSteadyLearn.Fits .empty := by
  intro merged h
  show ∀ id, PatternStore.empty.baselineOf id + merged.store.countForPattern id < Word.half
  intro id
  have hcount : merged.store.countForPattern id ≤ merged.store.evidence.length :=
    List.countP_le_length
  have := sampleLearn_evidence h
  have : PatternStore.empty.baselineOf id = 0 := rfl
  unfold Word.half
  omega

def sampleRequoted : Sources := ⟨fun _ => .ok "x = \"b\"\n", fun _ _ => .ok ⟨[], false⟩⟩

def sampleRequoting : LearningTask := ⟨[.modified "a.py"], .manual, 1, [], .incremental⟩

theorem sampleRequoting_modes :
    let store := (run "sample" .empty [sampleSteadyLearn]).under .none
    ({ sampleRequoting with mode := .full }.finish sampleSteadyPolicy sampleRequoted "sample" 7
      store).SameButMode
      ({ sampleRequoting with mode := .incremental }.finish sampleSteadyPolicy sampleRequoted
        "sample" 7 store) :=
  run_modes sampleSteadyPolicy_fades "sample" [sampleSteadyLearn]
    (List.forall_mem_singleton.mpr rfl) (List.forall_mem_singleton.mpr ⟨_, _, _, rfl⟩)
    (List.pairwise_singleton _ _) (List.forall_mem_singleton.mpr sampleSteadyLearn_fits)
    (List.forall_mem_singleton.mpr (by decide)) Faults.honest_none sampleRequoting sampleRequoted

end LearnerRun

end HouseStyle
