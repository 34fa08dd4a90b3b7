import HouseStyle.Proofs.Learning.Calls
import HouseStyle.Proofs.Text.Sorted

/-!
# The patterns are a view of the evidence

After any run, what is stored of a pattern is what its evidence says: its frequency beyond
the baseline counts the evidence, its examples are the first places of it, and its contexts
are those of the files that show it. A merge only computes anew what it has touched; all
else is still right, because neither its evidence nor its files have changed.
-/

namespace HouseStyle

namespace PatternStore

variable {store after : PatternStore} {policy : LearningPolicy} {imported : List String}
  {key : String}

/-- A pattern says what the evidence under its id says. Patterns that were brought in from
outside carry contexts of their own. -/
structure Fitting (store : PatternStore) (policy : LearningPolicy) (imported : List String)
    (key : String) (p : Pattern) : Prop where
  content : p.content.id = key
  frequency : p.frequency = p.baseline + store.countForPattern key
  positive : 0 < p.frequency
  bounded : p.frequency < Word.half
  examples : p.examples = store.readExamples key policy.examples
  contexts : key ∉ imported → p.contexts = store.contextsFor key []
  baseline : key ∉ imported → p.baseline = 0

/-- What is stored under an id is up to date. -/
def Current (store : PatternStore) (policy : LearningPolicy) (imported : List String)
    (key : String) : Prop :=
  match store.getPattern? key with
  | none => store.countForPattern key = 0
  | some row => ∃ p, Pattern.ofRow row = .ok p ∧ store.Fitting policy imported key p

/-- What is stored under an id can be brought up to date, with what the batch says of it. -/
def Ready (store : PatternStore) (imported : List String) (content : Option PatternContent)
    (key : String) : Prop :=
  match store.getPattern? key with
  | none => store.countForPattern key < Word.half ∧
    (store.countForPattern key = 0 ∨ ∃ c, content = some c ∧ c.id = key)
  | some row => ∃ q, Pattern.ofRow row = .ok q ∧ q.content.id = key ∧
    q.baseline + store.countForPattern key < Word.half ∧ (key ∉ imported → q.baseline = 0)

lemma Current.ready (h : store.Current policy imported key) (content : Option PatternContent) :
    store.Ready imported content key := by
  unfold Current at h
  unfold Ready
  cases hrow : store.getPattern? key with
  | none =>
    rw [hrow] at h
    exact ⟨by rw [h]; decide, .inl h⟩
  | some row =>
    rw [hrow] at h
    obtain ⟨p, hp, fits⟩ := h
    exact ⟨p, hp, fits.content, fits.frequency ▸ fits.bounded, fits.baseline⟩

lemma Fitting.mono {more : List String} (hmore : ∀ k ∈ imported, k ∈ more) {p : Pattern}
    (fits : store.Fitting policy imported key p) : store.Fitting policy more key p :=
  { fits with
    contexts := fun h => fits.contexts fun hk => h (hmore _ hk)
    baseline := fun h => fits.baseline fun hk => h (hmore _ hk) }

/-- Only these parts of a pattern matter. -/
lemma Fitting.congr {p q : Pattern} (fits : store.Fitting policy imported key p)
    (hcontent : q.content.id = key) (hfrequency : q.frequency = p.frequency)
    (hbaseline : q.baseline = p.baseline) (hexamples : q.examples = p.examples)
    (hcontexts : q.contexts = p.contexts) : store.Fitting policy imported key q where
  content := hcontent
  frequency := by rw [hfrequency, hbaseline, fits.frequency]
  positive := by rw [hfrequency]; exact fits.positive
  bounded := by rw [hfrequency]; exact fits.bounded
  examples := by rw [hexamples, fits.examples]
  contexts := fun h => by rw [hcontexts, fits.contexts h]
  baseline := fun h => by rw [hbaseline, fits.baseline h]

lemma Current.mono {more : List String} (hmore : ∀ k ∈ imported, k ∈ more)
    (h : store.Current policy imported key) : store.Current policy more key := by
  unfold Current at h ⊢
  cases hrow : store.getPattern? key with
  | none => simpa [hrow] using h
  | some row =>
    rw [hrow] at h
    obtain ⟨p, hp, fits⟩ := h
    exact ⟨p, hp, fits.mono hmore⟩

/-- Two stores show a pattern alike: by the same places and the same files. -/
structure ShowsAlike (store after : PatternStore) (key : String) : Prop where
  evidence : after.evidenceForPattern key = store.evidenceForPattern key
  files : after.filesForPattern key = store.filesForPattern key

namespace ShowsAlike

lemma count (alike : ShowsAlike store after key) :
    after.countForPattern key = store.countForPattern key := by
  have h := congrArg List.length alike.evidence
  simpa [countForPattern, evidenceForPattern, List.countP_eq_length_filter] using h

lemma examples (alike : ShowsAlike store after key) (limit : Nat) :
    after.readExamples key limit = store.readExamples key limit := by
  simp only [readExamples, examplesFor, alike.evidence]

lemma contexts (alike : ShowsAlike store after key) (carried : List String) :
    after.contextsFor key carried = store.contextsFor key carried := by
  simp only [contextsFor, alike.files]

lemma fitting (alike : ShowsAlike store after key) {p : Pattern}
    (fits : store.Fitting policy imported key p) : after.Fitting policy imported key p where
  content := fits.content
  frequency := by rw [alike.count, fits.frequency]
  positive := fits.positive
  bounded := fits.bounded
  examples := by rw [alike.examples, fits.examples]
  contexts := fun h => by rw [alike.contexts, fits.contexts h]
  baseline := fits.baseline

lemma current (alike : ShowsAlike store after key)
    (hrow : after.getPattern? key = store.getPattern? key)
    (h : store.Current policy imported key) : after.Current policy imported key := by
  unfold Current at h ⊢
  rw [hrow]
  cases hfound : store.getPattern? key with
  | none =>
    rw [hfound] at h
    exact alike.count.trans h
  | some row =>
    rw [hfound] at h
    obtain ⟨p, hp, fits⟩ := h
    exact ⟨p, hp, alike.fitting fits⟩

lemma ready (alike : ShowsAlike store after key)
    (hrow : after.getPattern? key = store.getPattern? key) {content : Option PatternContent}
    (h : store.Ready imported content key) : after.Ready imported content key := by
  unfold Ready at h ⊢
  rw [hrow, alike.count]
  exact h

end ShowsAlike

/-- Writes to the patterns change neither places nor files. -/
lemma Written.showsAlike {version : Nat} {now : Int} {change : Option PatternChange}
    (h : Written version now store after change) (key : String) : ShowsAlike store after key := by
  obtain ⟨_, _, _, rfl⟩ := h.frame
  exact ⟨rfl, rfl⟩

/-! ## One pattern -/

/-- A pattern that fits is up to date once it was put. -/
lemma current_put {existing : Option Pattern} {p : Pattern} {numbers : RowNumbers}
    (hread : store.readPattern? p.id = .ok existing)
    (hcontent : ∀ q, existing = some q → q.content.id = p.id)
    (sound : ∀ e ∈ p.examples, e.Sound) (fits : store.Fitting policy imported p.id p) :
    Current { store with patterns := putRows store.patterns p, numbers } policy imported p.id := by
  have hfrequency : p.restored.frequency = p.frequency :=
    Pattern.restored_frequency fits.bounded
  have hbaseline : p.restored.baseline = p.baseline := by
    apply Pattern.restored_baseline
    have := fits.frequency
    have := fits.bounded
    omega
  have alike : ShowsAlike store { store with patterns := putRows store.patterns p, numbers } p.id :=
    ⟨rfl, rfl⟩
  unfold Current
  rw [getPattern?_putRows, if_pos rfl]
  cases existing with
  | none =>
    rw [readPattern?_eq_none.mp hread]
    exact ⟨p.restored, Pattern.ofRow_freshRow sound,
      alike.fitting (fits.congr fits.content hfrequency hbaseline p.restored_examples
        p.restored_contexts)⟩
  | some q =>
    obtain ⟨row, hrow, hq⟩ := readPattern?_eq_some.mp hread
    rw [hrow]
    refine ⟨_, Pattern.ofRow_mergePattern hq (Pattern.ofRow_freshRow sound), ?_⟩
    apply alike.fitting
    apply fits.congr
    · exact hcontent q rfl
    · simp only [hfrequency]
    · simp only [hbaseline]
    · simp only [p.restored_examples]
    · simp only [p.restored_contexts]

lemma addWords_of_lt {a b : Nat} (h : a + b < Word.half) : addWords a b = a + b :=
  Nat.mod_eq_of_lt (Nat.lt_trans h (by decide))

/-- A pattern that was kept because nothing derived of it has changed says what the new one
would have said. -/
lemma fitting_of_sameDerived {p q : Pattern} (hsame : q.sameDerived p = true)
    (hcontent : q.content.id = key) (fits : store.Fitting policy imported key p) :
    store.Fitting policy imported key q := by
  simp only [Pattern.sameDerived, Bool.and_eq_true, beq_iff_eq] at hsame
  obtain ⟨⟨⟨⟨⟨hfrequency, hbaseline⟩, -⟩, hcontexts⟩, hexamples⟩, -⟩ := hsame
  exact fits.congr hcontent hfrequency hbaseline hexamples hcontexts

/-- Putting a pattern that fits leaves its id up to date, whether it is written or kept. -/
lemma putPattern_current {existing : Option Pattern} {p : Pattern}
    {change : Option PatternChange} (honest : store.faults.Honest)
    (hread : store.readPattern? p.id = .ok existing)
    (hcontent : ∀ q, existing = some q → q.content.id = p.id)
    (sound : ∀ e ∈ p.examples, e.Sound) (fits : store.Fitting policy imported p.id p)
    (h : store.putPattern existing p = .ok (after, change)) :
    after.Current policy imported p.id ∧ ∀ k ≠ p.id, after.getPattern? k = store.getPattern? k := by
  rcases putPattern_ok h honest with ⟨q, rfl, hsame, rfl, -⟩ | ⟨-, -, numbers, rfl⟩
  · obtain ⟨row, hrow, hq⟩ := readPattern?_eq_some.mp hread
    refine ⟨?_, fun k _ => rfl⟩
    unfold Current
    rw [hrow]
    exact ⟨q, hq, fitting_of_sameDerived hsame (hcontent q rfl) fits⟩
  · refine ⟨current_put hread hcontent sound fits, fun k hk => ?_⟩
    rw [getPattern?_putRows, if_neg hk]

/-- What a pattern computed anew is made of fits the evidence under its id. -/
lemma Candidate.fitting {version : Nat} {now : Int} {content : Option PatternContent}
    {existing : Option Pattern} {p : Pattern}
    (candidate : store.Candidate policy version now existing content key p)
    (hid : p.content.id = key)
    (bound : (existing.map (·.baseline)).getD 0 + store.countForPattern key < Word.half)
    (positive : (existing.map (·.baseline)).getD 0 + store.countForPattern key ≠ 0)
    (unnamed : key ∉ imported → (existing.map (·.baseline)).getD 0 = 0) :
    store.Fitting policy imported key p := by
  have hbaseline := candidate.baseline
  have hfrequency : p.frequency =
      (existing.map (·.baseline)).getD 0 + store.countForPattern key := by
    rw [candidate.frequency, hbaseline, addWords_of_lt bound]
  exact {
    content := hid
    frequency := by rw [hfrequency, hbaseline]
    positive := by omega
    bounded := by omega
    examples := candidate.examples
    contexts := by
      intro hnamed
      have hnone := unnamed hnamed
      rw [candidate.contexts]
      cases existing with
      | none => rfl
      | some q =>
        have hzero : q.baseline = 0 := hnone
        simp [hzero]
    baseline := fun hnamed => hbaseline.trans (unnamed hnamed) }

/-- A candidate that is put leaves its id up to date. -/
lemma Candidate.current {version : Nat} {now : Int} {content : Option PatternContent}
    {existing : Option Pattern} {p : Pattern} {change : Option PatternChange}
    (candidate : store.Candidate policy version now existing content key p)
    (fits : store.Fitting policy imported key p) (honest : store.faults.Honest)
    (hread : store.readPattern? key = .ok existing)
    (hcontent : ∀ q, existing = some q → q.content.id = key)
    (hput : store.putPattern existing p = .ok (after, change)) :
    after.Current policy imported key ∧ ∀ k ≠ key, after.getPattern? k = store.getPattern? k := by
  obtain rfl := candidate.id
  refine putPattern_current honest hread hcontent ?_ fits hput
  rw [candidate.examples]
  exact fun e => readExamples_sound

/-- A pattern without evidence is no longer there once it is buried. -/
lemma bury_current {version : Nat} {now : Int} {q : Pattern} (honest : store.faults.Honest)
    (hcount : store.countForPattern q.id = 0)
    (hbury : store.buryPattern q version now = .ok after) :
    after.Current policy imported q.id ∧
      ∀ k ≠ q.id, after.getPattern? k = store.getPattern? k := by
  obtain ⟨numbers, rfl⟩ := buryPattern_ok hbury honest
  constructor
  · simp only [Current, getPattern?_buried, if_true]
    exact hcount
  · intro k hk
    rw [getPattern?_buried, if_neg hk]

/-- Computing a pattern anew brings its id up to date and leaves the others alone. -/
theorem recomputePattern_current {version : Nat} {now : Int} {content : Option PatternContent}
    {gained : Bool} {change : Option PatternChange} (honest : store.faults.Honest)
    (ready : store.Ready imported content key)
    (h : store.recomputePattern policy version now content gained key = .ok (after, change)) :
    after.Current policy imported key ∧ ∀ k ≠ key, after.getPattern? k = store.getPattern? k := by
  obtain ⟨existing, hread, hcases⟩ := recomputePattern_cases h
  cases existing with
  | none =>
    have hnone := readPattern?_eq_none.mp hread
    simp only [Ready, hnone] at ready
    obtain ⟨hbound, hknown⟩ := ready
    have bound : 0 + store.countForPattern key < Word.half := by omega
    simp only [Option.map_none, Option.getD_none, addWords_of_lt bound] at hcases
    split at hcases
    · next hzero =>
      rcases hcases with ⟨-, rfl, -⟩ | ⟨p, hp, -⟩
      · exact ⟨by simpa [Current, hnone] using hzero, fun k _ => rfl⟩
      · cases hp
    · next hpositive =>
      obtain ⟨c, hc, hid⟩ := hknown.resolve_left (by omega)
      rcases hcases with ⟨-, rfl, -⟩ | ⟨p, candidate, hput⟩
      · cases hc
      · have hcontent : c = p.content := by simpa [hc] using candidate.content
        have fits : store.Fitting policy imported key p :=
          candidate.fitting (hcontent ▸ hid) bound hpositive fun _ => rfl
        exact candidate.current fits honest hread (by simp) hput
  | some q =>
    obtain ⟨row, hrow, hq⟩ := readPattern?_eq_some.mp hread
    simp only [Ready, hrow] at ready
    obtain ⟨q', hq', hid, bound, hunnamed⟩ := ready
    obtain rfl : q = q' := Except.ok.inj (hq.symm.trans hq')
    simp only [Option.map_some, Option.getD_some, addWords_of_lt bound] at hcases
    split at hcases
    · next hzero =>
      rcases hcases with ⟨hnone, -⟩ | ⟨p, hp, hbury, -⟩
      · cases hnone
      · obtain rfl : q = p := Option.some.inj hp
        obtain rfl := readPattern?_id hread
        exact bury_current honest (by omega) hbury
    · next hpositive =>
      rcases hcases with ⟨hnone, -⟩ | ⟨p, candidate, hput⟩
      · cases hnone
      · have hcontent : q.content = p.content := by simpa using candidate.content
        have fits := candidate.fitting (hcontent ▸ hid) bound hpositive hunnamed
        refine candidate.current fits honest hread ?_ hput
        rintro _ ⟨⟩
        exact hid

/-- A seed leaves every id up to date that was so, and its own counts as brought in. -/
theorem importSeed_current {version : Nat} {now : Int} {seed : PatternSeed}
    {change : Option PatternChange} (honest : store.faults.Honest)
    (named : seed.content.id ∈ imported)
    (bound : seed.frequency + store.countForPattern seed.content.id < Word.half)
    (current : ∀ k, store.Current policy imported k)
    (h : store.importSeed policy version now seed = .ok (after, change)) :
    ∀ k, after.Current policy imported k := by
  have hwritten := importSeed_written honest h
  obtain ⟨existing, hread, hcases⟩ := importSeed_cases h
  rw [addWords_of_lt bound] at hcases
  split at hcases
  · obtain ⟨rfl, -⟩ := hcases
    exact current
  · next hpositive =>
    obtain ⟨p, seeded, hput⟩ := hcases
    have hcontent : ∀ q, existing = some q → q.content.id = p.id := by
      rintro q rfl
      obtain ⟨row, hrow, hq⟩ := readPattern?_eq_some.mp hread
      have hcurrent := current seed.content.id
      simp only [Current, hrow] at hcurrent
      obtain ⟨q', hq', fits⟩ := hcurrent
      obtain rfl : q = q' := by simpa [hq] using hq'
      rw [fits.content, seeded.id]
    have hfrequency : p.frequency = seed.frequency + store.countForPattern seed.content.id := by
      rw [seeded.frequency, seeded.baseline, addWords_of_lt bound]
    have fits : store.Fitting policy imported p.id p := {
      content := by rw [seeded.content, seeded.id]
      frequency := by rw [hfrequency, seeded.baseline, seeded.id]
      positive := by omega
      bounded := by omega
      examples := by rw [seeded.examples, seeded.id]
      contexts := fun hk => absurd (seeded.id ▸ named) hk
      baseline := fun hk => absurd (seeded.id ▸ named) hk }
    have sound : ∀ e ∈ p.examples, e.Sound := by
      rw [seeded.examples]
      exact fun e => readExamples_sound
    rw [← seeded.id] at hread
    obtain ⟨hown, hothers⟩ := putPattern_current honest hread hcontent sound fits hput
    intro k
    by_cases hk : k = p.id
    · rw [hk]
      exact hown
    · exact (hwritten.showsAlike k).current (hothers k hk) (current k)

/-! ## Merges -/

/-- All that a run keeps true of a store. -/
structure Invariant (store : PatternStore) (policy : LearningPolicy) (imported : List String) :
    Prop where
  nodup : (store.patterns.map (·.patternId)).Nodup
  tracked : MergeState.Tracked store
  current : ∀ k, store.Current policy imported k

lemma invariant_empty (policy : LearningPolicy) : Invariant .empty policy [] where
  nodup := List.nodup_nil
  tracked := ⟨by simp [empty], by simp [empty]⟩
  current := fun k => rfl

lemma Invariant.mono {more : List String} (inv : store.Invariant policy imported)
    (hmore : ∀ k ∈ imported, k ∈ more) : store.Invariant policy more :=
  { inv with current := fun k => (inv.current k).mono hmore }

/-- Only these tables matter. -/
lemma Invariant.congr (inv : store.Invariant policy imported)
    (hpatterns : after.patterns = store.patterns) (hconcepts : after.concepts = store.concepts)
    (hevidence : after.evidence = store.evidence) (hfiles : after.files = store.files) :
    after.Invariant policy imported where
  nodup := by rw [hpatterns]; exact inv.nodup
  tracked := inv.tracked.congr hconcepts hevidence hfiles
  current := by
    intro k
    have alike : ShowsAlike store after k := by
      constructor
      · simp only [evidenceForPattern, hevidence]
      · simp only [filesForPattern, evidenceForPattern, hevidence, getFile?, hfiles]
    exact alike.current (by simp only [getPattern?, hpatterns]) (inv.current k)

/-- Computing patterns anew brings all of them up to date, if those left out are so. -/
lemma recompute_current {version : Nat} {now : Int} {gained : List (String × PatternContent)}
    (hgained : ∀ k c, gained.lookup k = some c → c.id = k) {keys : List String}
    {before all : List PatternChange} (honest : store.faults.Honest)
    (ready : ∀ k, store.Ready imported (gained.lookup k) k)
    (rest : ∀ k ∉ keys, store.Current policy imported k)
    (h : keys.foldlM (collecting fun store id => store.recomputePattern policy version now
      (gained.lookup id) (gained.lookup id).isSome id) (store, before) = .ok (after, all)) :
    ∀ k, after.Current policy imported k := by
  induction keys generalizing store before with
  | nil =>
    obtain ⟨rfl, rfl⟩ := Prod.mk.inj (pure_eq_ok.mp h)
    exact fun k => rest k (by simp)
  | cons key keys ih =>
    simp only [List.foldlM_cons, collecting, bind_eq_ok, pure_eq_ok] at h
    obtain ⟨_, ⟨⟨mid, change⟩, hfirst, rfl⟩, hrest⟩ := h
    have hwritten := recomputePattern_written honest (hgained key) hfirst
    obtain ⟨hown, hothers⟩ := recomputePattern_current honest (ready key) hfirst
    refine ih (hwritten.honest honest) ?_ ?_ hrest
    · intro k
      by_cases hk : k = key
      · exact hk ▸ hown.ready _
      · exact (hwritten.showsAlike k).ready (hothers k hk) (ready k)
    · intro k hk
      by_cases hkey : k = key
      · exact hkey ▸ hown
      · have hrow := hothers k hkey
        exact (hwritten.showsAlike k).current hrow (rest k (by simp [hkey, hk]))

lemma lookup_gained_isSome {gained : List (String × PatternContent)} {k : String}
    (h : ∃ entry ∈ gained, entry.1 = k) : ∃ c, gained.lookup k = some c := by
  obtain ⟨entry, hmem, rfl⟩ := h
  have hsome : (gained.lookup entry.1).isSome := by
    induction gained with
    | nil => simp at hmem
    | cons first gained ih =>
      rw [List.lookup_cons]
      split
      · rfl
      · next hkey =>
        rcases List.mem_cons.mp hmem with rfl | hmem
        · simp at hkey
        · exact ih hmem
  exact Option.isSome_iff_exists.mp hsome

/-- The steps of a batch leave every pattern ready to be computed anew, and those that they
do not touch up to date. -/
lemma steps_ready {state : MergeState} (current : ∀ k, store.Current policy imported k)
    (effect : MergeState.Effect (.start store) state)
    (bound : ∀ k, store.baselineOf k + state.store.countForPattern k < Word.half) (k : String) :
    state.store.Ready imported (state.gained.lookup k) k := by
  obtain ⟨concepts, evidence, files, numbers, hstore⟩ := effect.frame
  have hrow : state.store.getPattern? k = store.getPattern? k := by rw [hstore]; rfl
  have hcurrent := current k
  have hbound := bound k
  simp only [baselineOf] at hbound
  unfold Current at hcurrent
  unfold Ready
  rw [hrow]
  cases hfound : store.getPattern? k with
  | none =>
    rw [hfound] at hcurrent hbound
    refine ⟨by simpa using hbound, ?_⟩
    by_cases hzero : state.store.countForPattern k = 0
    · exact .inl hzero
    · obtain ⟨row, hmem, hid⟩ := List.countP_pos_iff.mp (Nat.pos_of_ne_zero hzero)
      rw [beq_iff_eq] at hid
      rcases effect.known row hmem with ⟨old, hold, holdid⟩ | hgained
      · have : old.patternId = k := holdid.trans hid
        have hpos : 0 < store.countForPattern k :=
          List.countP_pos_iff.mpr ⟨old, hold, by simpa using this⟩
        omega
      · obtain ⟨c, hc⟩ := lookup_gained_isSome (hid ▸ hgained)
        exact .inr ⟨c, hc, gained_content effect hc⟩
  | some row =>
    rw [hfound] at hcurrent hbound
    obtain ⟨p, hp, fits⟩ := hcurrent
    have hbaseline : p.baseline = readWord row.baseline :=
      congrArg Pattern.baseline (Pattern.ofRow_eq_ok_iff.mp hp).2.2.2
    simp only [Option.map_some, Option.getD_some] at hbound
    exact ⟨p, hp, fits.content, by rw [hbaseline]; exact hbound, fits.baseline⟩

theorem merge_invariant {origin : Origin} {mode : LearningMode} {preceding : Nat} {now : Int}
    {steps : List MergeStep} {merged : Merged} (inv : store.Invariant policy imported)
    (honest : store.faults.Honest)
    (bound : ∀ k, store.baselineOf k + merged.store.countForPattern k < Word.half)
    (h : store.merge policy origin mode preceding now steps = .ok merged) :
    merged.store.Invariant policy imported := by
  obtain ⟨state, final, changes, parts⟩ := merge_parts h honest
  have honest' := parts.effect.honest honest
  obtain ⟨patterns, tombstones, numbers, hfinal⟩ := parts.writes.frame
  obtain ⟨_, _, _, _, hstore⟩ := parts.effect.frame
  have hbound : ∀ k, store.baselineOf k + state.store.countForPattern k < Word.half := by
    intro k
    have := bound k
    simpa only [countForPattern, parts.evidence] using this
  have final_inv : final.Invariant policy imported := {
    nodup := parts.writes.nodup (by rw [hstore]; exact inv.nodup)
    tracked := by
      rw [hfinal]
      exact (parts.effect.tracked inv.tracked).congr rfl rfl rfl
    current := by
      refine recompute_current (fun k c => gained_content parts.effect) honest'
        (steps_ready inv.current parts.effect hbound) ?_ parts.recompute
      intro k hk
      have huntouched : k ∉ state.touched := by
        intro htouched
        exact hk (mem_sortedTexts.mpr (List.mem_append_left _ htouched))
      have alike : ShowsAlike store state.store k :=
        ⟨parts.effect.evidence k huntouched, parts.effect.files k huntouched⟩
      exact alike.current (by rw [hstore]; rfl) (inv.current k) }
  exact final_inv.congr parts.patterns (by rw [parts.concepts, hfinal])
    (by rw [parts.evidence, hfinal]) (by rw [parts.files, hfinal])

lemma importSeeds_current {version : Nat} {now : Int} {seeds : List PatternSeed}
    {before all : List PatternChange} (honest : store.faults.Honest)
    (named : ∀ seed ∈ seeds, seed.content.id ∈ imported)
    (bound : ∀ seed ∈ seeds,
      seed.frequency + store.countForPattern seed.content.id < Word.half)
    (current : ∀ k, store.Current policy imported k)
    (h : seeds.foldlM (collecting fun store seed =>
      store.importSeed policy version now seed) (store, before) = .ok (after, all)) :
    ∀ k, after.Current policy imported k := by
  induction seeds generalizing store before with
  | nil =>
    obtain ⟨rfl, rfl⟩ := Prod.mk.inj (pure_eq_ok.mp h)
    exact current
  | cons seed seeds ih =>
    simp only [List.foldlM_cons, collecting, bind_eq_ok, pure_eq_ok] at h
    obtain ⟨_, ⟨⟨mid, change⟩, hfirst, rfl⟩, hrest⟩ := h
    have hwritten := importSeed_written honest hfirst
    refine ih (hwritten.honest honest) (fun s hs => named s (by simp [hs])) ?_
      (importSeed_current honest (named seed (by simp)) (bound seed (by simp)) current hfirst) hrest
    intro s hs
    rw [(hwritten.showsAlike _).count]
    exact bound s (by simp [hs])

theorem importSeeds_invariant {preceding : Nat} {now : Int} {seeds : List PatternSeed}
    {merged : Merged} (inv : store.Invariant policy imported) (honest : store.faults.Honest)
    (named : ∀ seed ∈ seeds, seed.content.id ∈ imported)
    (bound : ∀ seed ∈ seeds,
      seed.frequency + store.countForPattern seed.content.id < Word.half)
    (h : store.importSeeds policy preceding now seeds = .ok merged) :
    merged.store.Invariant policy imported := by
  obtain ⟨final, changes, parts⟩ := importSeeds_parts h honest
  obtain ⟨patterns, tombstones, numbers, hfinal⟩ := parts.writes.frame
  have final_inv : final.Invariant policy imported := {
    nodup := parts.writes.nodup inv.nodup
    tracked := by
      rw [hfinal]
      exact inv.tracked.congr rfl rfl rfl
    current := importSeeds_current honest named bound inv.current parts.imports }
  exact final_inv.congr parts.patterns (by rw [parts.concepts, hfinal])
    (by rw [parts.evidence, hfinal]) (by rw [parts.files, hfinal])

/-! ## Runs -/

/-- The pattern table as a view: every stored pattern is readable and says what the evidence
under its id says, nothing shown is without a pattern, and nothing is stored of a file that
is not tracked. -/
structure Materialised (store : PatternStore) (policy : LearningPolicy)
    (imported : List String) : Prop where
  shown : ∀ row ∈ store.evidence, ∃ pattern ∈ store.patterns, pattern.patternId = row.patternId
  concepts : ∀ row ∈ store.concepts, ∃ file ∈ store.files, file.filePath = row.filePath
  evidence : ∀ row ∈ store.evidence, ∃ file ∈ store.files, file.filePath = row.filePath
  patterns : ∀ row ∈ store.patterns, ∃ p, Pattern.ofRow row = .ok p ∧ p.id = row.patternId ∧
    p.content.id = p.id ∧
    p.frequency = p.baseline + store.evidence.countP (·.patternId == p.id) ∧
    0 < p.frequency ∧
    p.examples = (((store.evidence.filter (·.patternId == p.id)).mergeSort evidenceBefore).take
      policy.examples).map (fun row => ⟨row.filePath, readWord32 row.line, row.snippet⟩) ∧
    (p.id ∉ imported → p.contexts =
      (sortedTexts (contextsOfFiles (store.filesForPattern p.id))).take contextLimit)

/-- A limit from the top bit on is no limit, and there are never so many places. -/
lemma readExamples_eq_take {limit : Nat} (h : store.countForPattern key < Word.half) :
    store.readExamples key limit =
      (((store.evidence.filter (·.patternId == key)).mergeSort evidenceBefore).take limit).map
        (fun row => ⟨row.filePath, readWord32 row.line, row.snippet⟩) := by
  unfold readExamples examplesFor takeLimit evidenceForPattern
  split
  · rfl
  · next hlimit =>
    rw [List.take_of_length_le]
    rw [List.length_mergeSort, ← List.countP_eq_length_filter]
    unfold countForPattern at h
    omega

theorem Invariant.materialised (inv : store.Invariant policy imported) :
    store.Materialised policy imported where
  shown := by
    intro row hrow
    by_contra hnone
    have hlookup : store.getPattern? row.patternId = none := by
      rw [getPattern?_eq_lookup, Table.lookup_eq_none]
      exact fun pattern hp heq => hnone ⟨pattern, hp, heq⟩
    have hzero := inv.current row.patternId
    simp only [Current, hlookup] at hzero
    have hpos : 0 < store.countForPattern row.patternId :=
      List.countP_pos_iff.mpr ⟨row, hrow, by simp⟩
    omega
  concepts := by
    intro row hrow
    obtain ⟨file, hfile⟩ := Option.isSome_iff_exists.mp (inv.tracked.concepts row hrow)
    exact ⟨file, Table.mem_of_lookup _ hfile⟩
  evidence := by
    intro row hrow
    obtain ⟨file, hfile⟩ := Option.isSome_iff_exists.mp (inv.tracked.evidence row hrow)
    exact ⟨file, Table.mem_of_lookup _ hfile⟩
  patterns := by
    intro row hrow
    have hlookup : store.getPattern? row.patternId = some row :=
      Table.lookup_of_mem _ inv.nodup hrow
    have hcurrent := inv.current row.patternId
    simp only [Current, hlookup] at hcurrent
    obtain ⟨p, hp, fits⟩ := hcurrent
    have hid : p.id = row.patternId := congrArg Pattern.id (Pattern.ofRow_eq_ok_iff.mp hp).2.2.2
    rw [← hid] at fits
    have hcount : store.countForPattern p.id < Word.half := by
      have := fits.frequency
      have := fits.bounded
      omega
    exact ⟨p, hp, hid, fits.content, fits.frequency, fits.positive,
      fits.examples.trans (readExamples_eq_take hcount), fits.contexts⟩

end PatternStore

namespace LearnerRun

open PatternStore

/-- One call keeps the invariant, with the ids that it brings in added to those before. -/
theorem perform_invariant {store : PatternStore} {imported : List String} {call : LearnerCall}
    (projectId : String) (inv : store.Invariant call.policy imported) (fits : call.Fits store) :
    (call.perform projectId store).store.Invariant call.policy
      (imported ++ call.request.imported) := by
  have moved : (store.under call.faults).Invariant call.policy imported :=
    inv.congr rfl rfl rfl rfl
  have wider :
      (store.under call.faults).Invariant call.policy (imported ++ call.request.imported) :=
    moved.mono fun k hk => List.mem_append_left _ hk
  rw [call.perform_store]
  cases hmerged : call.merged? store with
  | none => exact wider
  | some merged =>
    have bound := fits merged hmerged
    rcases LearnerCall.merged?_cases hmerged with
      ⟨sources, changes, origin, task, hrequest, -, hmerge⟩ | ⟨seeds, hrequest, himport⟩
    · simp only [hrequest] at bound
      exact merge_invariant wider call.honest bound hmerge
    · simp only [hrequest] at bound
      refine importSeeds_invariant wider call.honest ?_ bound himport
      intro seed hseed
      rw [hrequest]
      exact List.mem_append_right _ (List.mem_map.mpr ⟨seed, hseed, rfl⟩)

theorem run_invariant {store : PatternStore} {policy : LearningPolicy} {projectId : String}
    {imported : List String} {calls : List LearnerCall}
    (one : ∀ call ∈ calls, call.policy = policy) (inv : store.Invariant policy imported)
    (fits : ∀ step ∈ trace projectId store calls, step.2.Fits step.1) :
    (run projectId store calls).Invariant policy (imported ++ LearnerRun.imported calls) := by
  induction calls generalizing store imported with
  | nil => simpa [LearnerRun.imported, run] using inv
  | cons call calls ih =>
    obtain rfl := one call (by simp)
    have first := perform_invariant projectId inv (fits (store, call) (by simp [trace]))
    have rest := ih (fun later hlater => one later (by simp [hlater])) first
      fun step hstep => fits step (by simp [trace, hstep])
    simpa [LearnerRun.imported, run, List.append_assoc] using rest

/-- After any run from an empty store under one configuration, whatever its batches and
imports, and whichever of its calls failed, the patterns are a view of the evidence. -/
theorem run_materialised (policy : LearningPolicy) (projectId : String)
    (calls : List LearnerCall) (one : ∀ call ∈ calls, call.policy = policy)
    (fits : ∀ step ∈ trace projectId .empty calls, step.2.Fits step.1) :
    (run projectId .empty calls).Materialised policy (LearnerRun.imported calls) :=
  (run_invariant one (invariant_empty policy) fits).materialised

/-! A run that learns a file and then brings in a seed for what the file shows. -/

def sampleSources : Sources := ⟨fun _ => .ok "x = 'a'\n", fun _ _ => .ok ⟨[], false⟩⟩

def sampleLearn : LearnerCall := sampleCall (.learn sampleSources [.added "a.py"] .manual)

def sampleImport : LearnerCall :=
  sampleCall (.importSeeds [⟨.quotes .single, 2, 0.75, ["lang:python"]⟩])

/-- The file shows no more than three places, whatever the policy. -/
lemma sampleLearn_evidence {threshold : Float} {examples : Nat} {confidence : ConfidencePolicy}
    {merged : Merged}
    (h : { sampleLearn with policy := ⟨threshold, examples, 10, confidence⟩ }.merged? .empty =
      some merged) :
    merged.store.evidence.length ≤ 3 := by
  rcases LearnerCall.merged?_cases h with
    ⟨sources, changes, origin, task, hrequest, hbegin, hmerge⟩ | ⟨seeds, hrequest, -⟩
  · obtain ⟨rfl, rfl, rfl⟩ := LearnerRequest.learn.inj hrequest
    have htask : task = ⟨[.added "a.py"], .manual, 0, [], .incremental⟩ :=
      (Except.ok.inj hbegin).symm
    subst htask
    obtain ⟨state, _, _, parts⟩ := merge_parts hmerge Faults.honest_none
    obtain ⟨mid, hmid, hend⟩ := bind_eq_ok.mp parts.steps
    obtain ⟨⟨_, hstore⟩, -⟩ := MergeState.examine_ok Faults.honest_none hmid
    obtain rfl : mid = state := pure_eq_ok.mp hend
    rw [parts.evidence, hstore]
    show (List.map _ (Observation.observe "a.py" "x = 'a'\n" ⟨[], false⟩)).length ≤ 3
    rw [List.length_map]
    decide
  · cases hrequest

lemma sampleRun_fits : ∀ step ∈ trace "sample" .empty [sampleLearn, sampleImport],
    step.2.Fits step.1 := by
  have hcount : ∀ (store : PatternStore) (id : String), store.countForPattern id ≤
      store.evidence.length := fun store id => List.countP_le_length
  simp only [trace, List.mem_cons, List.not_mem_nil, or_false, forall_eq_or_imp, forall_eq]
  constructor
  · intro merged h
    show ∀ id, PatternStore.empty.baselineOf id + merged.store.countForPattern id < Word.half
    intro id
    have := hcount merged.store id
    have := sampleLearn_evidence h
    have : PatternStore.empty.baselineOf id = 0 := rfl
    unfold Word.half
    omega
  · intro merged _
    show ∀ seed ∈ ([_] : List PatternSeed), seed.frequency + _ < Word.half
    have hevidence :
        (sampleLearn.perform "sample" .empty).store.evidence.length ≤ 3 := by
      rw [sampleLearn.perform_store]
      split
      · next merged h => exact sampleLearn_evidence h
      · decide
    intro seed hseed
    have := hcount (sampleLearn.perform "sample" .empty).store seed.content.id
    have hfrequency : seed.frequency = 2 := by rw [List.mem_singleton.mp hseed]
    unfold Word.half
    omega

theorem sampleRun_materialised :
    (run "sample" .empty [sampleLearn, sampleImport]).Materialised samplePolicy
      (imported [sampleLearn, sampleImport]) :=
  run_materialised samplePolicy "sample" [sampleLearn, sampleImport]
    (by simp [sampleLearn, sampleImport, sampleCall]) sampleRun_fits

end LearnerRun

end HouseStyle
