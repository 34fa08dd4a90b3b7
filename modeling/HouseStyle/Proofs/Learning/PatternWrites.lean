import HouseStyle.Learning.Import
import HouseStyle.Proofs.Pattern.Form
import HouseStyle.Proofs.Store.Lookup

/-!
# What a merge does to one pattern

A pattern that is computed anew, and one that a seed brings in, is kept, buried or put in
place of what was there. `Candidate` and `Seeded` say what the pattern put is made of, and
`Written` what all such writes have in common.
-/

namespace HouseStyle

namespace PatternStore

variable {store after : PatternStore}

/-- A pattern that is stored is read from its row. -/
lemma readPattern?_of_row {id : String} {row : PatternRow}
    (h : store.getPattern? id = some row) :
    store.readPattern? id = (Pattern.ofRow row).map some := by
  unfold readPattern?
  rw [h]
  rfl

lemma readPattern?_of_none {id : String} (h : store.getPattern? id = none) :
    store.readPattern? id = .ok none := by
  unfold readPattern?
  rw [h]
  rfl

lemma readPattern?_eq_none {id : String} :
    store.readPattern? id = .ok none ↔ store.getPattern? id = none := by
  cases hrow : store.getPattern? id with
  | none => simp [readPattern?_of_none hrow]
  | some row =>
    rw [readPattern?_of_row hrow]
    cases Pattern.ofRow row <;> simp [Except.map]

lemma readPattern?_eq_some {id : String} {p : Pattern} :
    store.readPattern? id = .ok (some p) ↔
      ∃ row, store.getPattern? id = some row ∧ Pattern.ofRow row = .ok p := by
  cases hrow : store.getPattern? id with
  | none => simp [readPattern?_of_none hrow]
  | some row =>
    rw [readPattern?_of_row hrow]
    cases hp : Pattern.ofRow row <;> simp [hp, Except.map]

lemma readPattern?_id {id : String} {p : Pattern} (h : store.readPattern? id = .ok (some p)) :
    p.id = id := by
  obtain ⟨row, hrow, hp⟩ := readPattern?_eq_some.mp h
  have hid : p.id = row.patternId := congrArg Pattern.id (Pattern.ofRow_eq_ok_iff.mp hp).2.2.2
  rw [hid]
  exact (Table.mem_of_lookup _ hrow).2

/-! ## Burying and putting -/

/-- What is left of a pattern that is removed in the merge to a version. -/
def tombstoneOf (p : Pattern) (version : Nat) (now : Int) : TombstoneRow :=
  ⟨p.id, storedWord version, p.category.name, p.content.toJson.render, now⟩

lemma buryPattern_ok {p : Pattern} {version : Nat} {now : Int}
    (h : store.buryPattern p version now = .ok after) (honest : store.faults.Honest) :
    ∃ numbers, after = { store with
      patterns := store.patterns.filter (fun row => !(row.patternId == p.id))
      tombstones := addTombstone store.tombstones (tombstoneOf p version now)
      numbers } := by
  simp only [buryPattern, bind_eq_ok] at h
  obtain ⟨⟨s1, _⟩, h1, h2⟩ := h
  obtain ⟨_, rfl⟩ := deletePattern_ok h1 honest
  exact insertTombstone_ok h2 honest

/-- Only the key of a pattern that is buried loses its row. -/
lemma getPattern?_buried (key : String) (tombstones : List TombstoneRow) (numbers : RowNumbers)
    (k : String) :
    getPattern? { store with
      patterns := store.patterns.filter (fun row => !(row.patternId == key))
      tombstones, numbers } k = if k = key then none else store.getPattern? k :=
  Table.lookup_filter_ne PatternRow.patternId store.patterns key k

/-- The patterns after a pattern was put. -/
def putRows (rows : List PatternRow) (p : Pattern) : List PatternRow :=
  Table.put rows samePatternId mergePattern p.freshRow

lemma getPattern?_putRows (p : Pattern) (numbers : RowNumbers) (k : String) :
    getPattern? { store with patterns := putRows store.patterns p, numbers } k =
      if k = p.id then
        some (((store.getPattern? k).map (mergePattern · p.freshRow)).getD p.freshRow)
      else store.getPattern? k :=
  keyed_patterns.lookup_put store.patterns p.freshRow k

/-- A row after a put is an old one or the new one, or it was written over one of its key. -/
lemma mem_putRows {rows : List PatternRow} {p : Pattern} {row : PatternRow}
    (h : row ∈ putRows rows p) :
    row ∈ rows ∨ row = p.freshRow ∨ ∃ old ∈ rows, row = mergePattern old p.freshRow :=
  Table.mem_put h

/-- A pattern that is put is read as it is stored, but for the content and the age of the one
before. -/
lemma readPattern?_putRows {existing : Option Pattern} {p : Pattern}
    (hread : store.readPattern? p.id = .ok existing) (sound : ∀ e ∈ p.examples, e.Sound)
    (numbers : RowNumbers) :
    ∃ r, readPattern? { store with patterns := putRows store.patterns p, numbers } p.id =
        .ok (some r) ∧ r.frequency = p.restored.frequency ∧ r.baseline = p.restored.baseline ∧
      r.confidence = p.restored.confidence ∧ r.contexts = p.contexts ∧
      r.lastSeen = p.lastSeen := by
  have hrow : getPattern? { store with patterns := putRows store.patterns p, numbers } p.id =
      some (((store.getPattern? p.id).map (mergePattern · p.freshRow)).getD p.freshRow) := by
    rw [getPattern?_putRows, if_pos rfl]
  have hfresh := Pattern.ofRow_freshRow sound
  cases existing with
  | none =>
    rw [readPattern?_eq_none.mp hread] at hrow
    exact ⟨p.restored, readPattern?_eq_some.mpr ⟨_, hrow, hfresh⟩, rfl, rfl, rfl, rfl, rfl⟩
  | some q =>
    obtain ⟨row, hfound, hq⟩ := readPattern?_eq_some.mp hread
    rw [hfound] at hrow
    refine ⟨_, readPattern?_eq_some.mpr ⟨_, hrow, Pattern.ofRow_mergePattern hq hfresh⟩, ?_⟩
    simp only [Pattern.restored, and_self]

/-- What a put reports. -/
def putChange (existing : Option Pattern) (p : Pattern) : PatternChange :=
  match existing with
  | some _ => .updated p
  | none => .created p

lemma putPattern_ok {existing : Option Pattern} {p : Pattern} {change : Option PatternChange}
    (h : store.putPattern existing p = .ok (after, change)) (honest : store.faults.Honest) :
    (∃ q, existing = some q ∧ q.sameDerived p = true ∧ after = store ∧ change = none) ∨
    (p.confidence.isNaN = false ∧ change = some (putChange existing p) ∧
      ∃ numbers, after = { store with patterns := putRows store.patterns p, numbers }) := by
  unfold putPattern at h
  cases existing with
  | none =>
    simp only [bind_eq_ok, pure_eq_ok] at h
    obtain ⟨s1, h1, h2⟩ := h
    obtain ⟨rfl, rfl⟩ := Prod.mk.inj h2
    obtain ⟨hnumber, hafter⟩ := upsertPattern_ok h1 honest
    exact .inr ⟨hnumber, rfl, hafter⟩
  | some q =>
    simp only at h
    split at h
    · next hsame =>
      obtain ⟨rfl, rfl⟩ := by simpa using h
      exact .inl ⟨q, rfl, hsame, rfl, rfl⟩
    · simp only [bind_eq_ok, pure_eq_ok] at h
      obtain ⟨s1, h1, h2⟩ := h
      obtain ⟨rfl, rfl⟩ := Prod.mk.inj h2
      obtain ⟨hnumber, hafter⟩ := upsertPattern_ok h1 honest
      exact .inr ⟨hnumber, rfl, hafter⟩

/-- A put leaves the patterns under other ids alone. -/
lemma putPattern_others {existing : Option Pattern} {p : Pattern} {change : Option PatternChange}
    (honest : store.faults.Honest) (h : store.putPattern existing p = .ok (after, change)) :
    ∀ k ≠ p.id, after.getPattern? k = store.getPattern? k := by
  intro k hk
  rcases putPattern_ok h honest with ⟨-, -, -, rfl, -⟩ | ⟨-, -, numbers, rfl⟩
  · rfl
  · rw [getPattern?_putRows, if_neg hk]

/-- A pattern that is put is read with its contexts and with its counts, when these are signed
words, whether it is written or kept. -/
lemma putPattern_read {existing : Option Pattern} {p : Pattern} {change : Option PatternChange}
    (honest : store.faults.Honest) (hread : store.readPattern? p.id = .ok existing)
    (sound : ∀ e ∈ p.examples, e.Sound)
    (h : store.putPattern existing p = .ok (after, change)) :
    ∃ q, after.readPattern? p.id = .ok (some q) ∧ q.contexts = p.contexts ∧
      (p.frequency < Word.half → q.frequency = p.frequency) ∧
      (p.baseline < Word.half → q.baseline = p.baseline) := by
  rcases putPattern_ok h honest with ⟨q, rfl, hsame, rfl, -⟩ | ⟨-, -, numbers, rfl⟩
  · simp only [Pattern.sameDerived, Bool.and_eq_true, beq_iff_eq] at hsame
    obtain ⟨⟨⟨⟨⟨hfrequency, hbaseline⟩, -⟩, hcontexts⟩, -⟩, -⟩ := hsame
    exact ⟨q, hread, hcontexts, fun _ => hfrequency, fun _ => hbaseline⟩
  · obtain ⟨r, hr, hfrequency, hbaseline, -, hcontexts, -⟩ :=
      readPattern?_putRows hread sound numbers
    exact ⟨r, hr, hcontexts, fun bound => hfrequency.trans (Pattern.restored_frequency bound),
      fun bound => hbaseline.trans (Pattern.restored_baseline bound)⟩

/-! ## Computing anew -/

/-- What a pattern computed anew is made of. -/
structure Candidate (store : PatternStore) (policy : LearningPolicy) (version : Nat) (now : Int)
    (existing : Option Pattern) (content : Option PatternContent) (key : String) (p : Pattern) :
    Prop where
  id : p.id = key
  category : p.category = p.content.category
  content : (existing.map (·.content)).or content = some p.content
  baseline : p.baseline = (existing.map (·.baseline)).getD 0
  frequency : p.frequency = addWords p.baseline (store.countForPattern key)
  contexts : p.contexts = store.contextsFor key
    (match existing with
      | some previous => if 0 < previous.baseline then previous.contexts else []
      | none => [])
  examples : p.examples = store.readExamples key policy.examples
  version : p.version = version
  createdAt : p.createdAt = (existing.map (·.createdAt)).getD now
  lastSeen : p.lastSeen = now ∨ ∃ q, existing = some q ∧ p.lastSeen = q.lastSeen

/-- A pattern without frequency is buried, if it is there; with one it is put, if anything
is known of it. -/
theorem recomputePattern_cases {policy : LearningPolicy} {version : Nat} {now : Int}
    {content : Option PatternContent} {gained : Bool} {id : String}
    {change : Option PatternChange}
    (h : store.recomputePattern policy version now content gained id = .ok (after, change)) :
    ∃ existing, store.readPattern? id = .ok existing ∧
      if addWords ((existing.map (·.baseline)).getD 0) (store.countForPattern id) = 0 then
        (existing = none ∧ after = store ∧ change = none) ∨
        ∃ p, existing = some p ∧ store.buryPattern p version now = .ok after ∧
          change = some (.removed p.id)
      else
        (existing = none ∧ content = none ∧ after = store ∧ change = none) ∨
        ∃ p, Candidate store policy version now existing content id p ∧
          store.putPattern existing p = .ok (after, change) := by
  simp only [recomputePattern, bind_eq_ok] at h
  obtain ⟨existing, hread, h⟩ := h
  refine ⟨existing, hread, ?_⟩
  split at h
  · next hzero =>
    rw [if_pos hzero]
    cases existing with
    | none =>
      obtain ⟨rfl, rfl⟩ := Prod.mk.inj (pure_eq_ok.mp h)
      exact .inl ⟨rfl, rfl, rfl⟩
    | some p =>
      simp only [bind_eq_ok, pure_eq_ok] at h
      obtain ⟨s1, hbury, h⟩ := h
      obtain ⟨rfl, rfl⟩ := Prod.mk.inj h
      exact .inr ⟨p, rfl, hbury, rfl⟩
  · next hpositive =>
    rw [if_neg hpositive]
    split at h
    · next hunknown =>
      obtain ⟨rfl, rfl⟩ := Prod.mk.inj (pure_eq_ok.mp h)
      cases existing with
      | none => exact .inl ⟨rfl, by simpa using hunknown, rfl, rfl⟩
      | some p => simp at hunknown
    · next content' hcontent =>
      refine .inr ⟨_, ⟨rfl, rfl, hcontent, rfl, rfl, rfl, rfl, rfl, rfl, ?_⟩, h⟩
      cases existing with
      | none => exact .inl rfl
      | some previous =>
        cases gained with
        | true => exact .inl rfl
        | false => exact .inr ⟨previous, rfl, rfl⟩

/-- The others are left alone when a pattern is computed anew. -/
lemma recomputePattern_others {policy : LearningPolicy} {version : Nat} {now : Int}
    {content : Option PatternContent} {gained : Bool} {id : String}
    {change : Option PatternChange} (honest : store.faults.Honest)
    (h : store.recomputePattern policy version now content gained id = .ok (after, change)) :
    ∀ k ≠ id, after.getPattern? k = store.getPattern? k := by
  intro k hk
  obtain ⟨existing, hread, hcases⟩ := recomputePattern_cases h
  split at hcases
  · rcases hcases with ⟨-, rfl, -⟩ | ⟨p, rfl, hbury, -⟩
    · rfl
    · obtain rfl := readPattern?_id hread
      obtain ⟨numbers, rfl⟩ := buryPattern_ok hbury honest
      rw [getPattern?_buried, if_neg hk]
  · rcases hcases with ⟨-, -, rfl, -⟩ | ⟨p, candidate, hput⟩
    · rfl
    · exact putPattern_others honest hput k (by rwa [candidate.id])

/-! ## Bringing in seeds -/

/-- What a pattern brought in by a seed is made of. -/
structure Seeded (store : PatternStore) (policy : LearningPolicy) (version : Nat) (now : Int)
    (existing : Option Pattern) (seed : PatternSeed) (p : Pattern) : Prop where
  id : p.id = seed.content.id
  category : p.category = p.content.category
  content : p.content = seed.content
  baseline : p.baseline = seed.frequency
  frequency : p.frequency = addWords p.baseline (store.countForPattern seed.content.id)
  examples : p.examples = store.readExamples seed.content.id policy.examples
  version : p.version = version
  createdAt : p.createdAt = (existing.map (·.createdAt)).getD now
  lastSeen : p.lastSeen = now

theorem importSeed_cases {policy : LearningPolicy} {version : Nat} {now : Int}
    {seed : PatternSeed} {change : Option PatternChange}
    (h : store.importSeed policy version now seed = .ok (after, change)) :
    ∃ existing, store.readPattern? seed.content.id = .ok existing ∧
      if addWords seed.frequency (store.countForPattern seed.content.id) = 0 then
        after = store ∧ change = none
      else ∃ p, Seeded store policy version now existing seed p ∧
        store.putPattern existing p = .ok (after, change) := by
  simp only [importSeed, bind_eq_ok] at h
  obtain ⟨existing, hread, h⟩ := h
  refine ⟨existing, hread, ?_⟩
  split at h
  · next hzero =>
    obtain ⟨rfl, rfl⟩ := Prod.mk.inj (pure_eq_ok.mp h)
    rw [if_pos hzero]
    exact ⟨rfl, rfl⟩
  · next hpositive =>
    rw [if_neg hpositive]
    exact ⟨_, ⟨rfl, rfl, rfl, rfl, rfl, rfl, rfl, rfl, rfl⟩, h⟩

/-- The others are left alone when a seed is brought in. -/
lemma importSeed_others {policy : LearningPolicy} {version : Nat} {now : Int}
    {seed : PatternSeed} {change : Option PatternChange} (honest : store.faults.Honest)
    (h : store.importSeed policy version now seed = .ok (after, change)) :
    ∀ k ≠ seed.content.id, after.getPattern? k = store.getPattern? k := by
  intro k hk
  obtain ⟨existing, -, hcases⟩ := importSeed_cases h
  split at hcases
  · obtain ⟨rfl, -⟩ := hcases
    rfl
  · obtain ⟨p, seeded, hput⟩ := hcases
    exact putPattern_others honest hput k (by rwa [seeded.id])

/-! ## What all writes have in common -/

lemma readExamples_sound {id : String} {limit : Nat} {e : PatternExample}
    (h : e ∈ store.readExamples id limit) : e.Sound := by
  obtain ⟨row, -, rfl⟩ := List.mem_map.mp h
  exact readWord32_lt _

lemma addWords_lt (a b : Nat) : addWords a b < Word.bound := Nat.mod_lt _ (by decide)

/-- What holds of every pattern that is put in the merge to a version. -/
structure Upserted (version : Nat) (now : Int) (existing : Option Pattern) (p : Pattern) :
    Prop where
  number : p.confidence.isNaN = false
  category : p.category = p.content.category
  /-- The content is what was stored, or else the id is the content's. -/
  content : (∃ q, existing = some q ∧ p.content = q.content) ∨ p.id = p.content.id
  frequency : p.frequency < Word.bound
  examples : ∀ e ∈ p.examples, e.Sound
  version : p.version = version
  createdAt : p.createdAt = (existing.map (·.createdAt)).getD now
  lastSeen : p.lastSeen = now ∨ ∃ q, existing = some q ∧ p.lastSeen = q.lastSeen

/-- One write to the patterns, and what is reported of it. -/
inductive Written (version : Nat) (now : Int) (store : PatternStore) :
    PatternStore → Option PatternChange → Prop where
  | kept : Written version now store store none
  | buried (p : Pattern) (numbers : RowNumbers) :
    store.readPattern? p.id = .ok (some p) →
    Written version now store
      { store with
        patterns := store.patterns.filter (fun row => !(row.patternId == p.id))
        tombstones := addTombstone store.tombstones (tombstoneOf p version now)
        numbers }
      (some (.removed p.id))
  | put (existing : Option Pattern) (p : Pattern) (numbers : RowNumbers) :
    store.readPattern? p.id = .ok existing → Upserted version now existing p →
    Written version now store { store with patterns := putRows store.patterns p, numbers }
      (some (putChange existing p))

lemma Candidate.upserted {policy : LearningPolicy} {version : Nat} {now : Int}
    {existing : Option Pattern} {content : Option PatternContent} {key : String} {p : Pattern}
    (candidate : Candidate store policy version now existing content key p)
    (hcontent : ∀ c, content = some c → c.id = key) (number : p.confidence.isNaN = false) :
    Upserted version now existing p where
  number := number
  category := candidate.category
  content := by
    have h := candidate.content
    cases existing with
    | some q => exact .inl ⟨q, rfl, by simpa using h.symm⟩
    | none => exact .inr (by rw [candidate.id, hcontent p.content (by simpa using h)])
  frequency := by
    rw [candidate.frequency]
    exact addWords_lt _ _
  examples := by
    rw [candidate.examples]
    exact fun e => readExamples_sound
  version := candidate.version
  createdAt := candidate.createdAt
  lastSeen := candidate.lastSeen

lemma Seeded.upserted {policy : LearningPolicy} {version : Nat} {now : Int}
    {existing : Option Pattern} {seed : PatternSeed} {p : Pattern}
    (seeded : Seeded store policy version now existing seed p)
    (number : p.confidence.isNaN = false) : Upserted version now existing p where
  number := number
  category := seeded.category
  content := .inr (by rw [seeded.id, seeded.content])
  frequency := by
    rw [seeded.frequency]
    exact addWords_lt _ _
  examples := by
    rw [seeded.examples]
    exact fun e => readExamples_sound
  version := seeded.version
  createdAt := seeded.createdAt
  lastSeen := .inl seeded.lastSeen

theorem recomputePattern_written {policy : LearningPolicy} {version : Nat} {now : Int}
    {content : Option PatternContent} {gained : Bool} {id : String}
    {change : Option PatternChange} (honest : store.faults.Honest)
    (hcontent : ∀ c, content = some c → c.id = id)
    (h : store.recomputePattern policy version now content gained id = .ok (after, change)) :
    Written version now store after change := by
  obtain ⟨existing, hread, hcases⟩ := recomputePattern_cases h
  split at hcases
  · rcases hcases with ⟨-, rfl, rfl⟩ | ⟨p, rfl, hbury, rfl⟩
    · exact .kept
    · obtain ⟨numbers, rfl⟩ := buryPattern_ok hbury honest
      rw [← readPattern?_id hread] at hread
      exact .buried p numbers hread
  · rcases hcases with ⟨-, -, rfl, rfl⟩ | ⟨p, candidate, hput⟩
    · exact .kept
    · rcases putPattern_ok hput honest with ⟨-, -, -, rfl, rfl⟩ | ⟨number, rfl, numbers, rfl⟩
      · exact .kept
      · rw [← candidate.id] at hread
        exact .put existing p numbers hread (candidate.upserted hcontent number)

theorem importSeed_written {policy : LearningPolicy} {version : Nat} {now : Int}
    {seed : PatternSeed} {change : Option PatternChange} (honest : store.faults.Honest)
    (h : store.importSeed policy version now seed = .ok (after, change)) :
    Written version now store after change := by
  obtain ⟨existing, hread, hcases⟩ := importSeed_cases h
  split at hcases
  · obtain ⟨rfl, rfl⟩ := hcases
    exact .kept
  · obtain ⟨p, seeded, hput⟩ := hcases
    rcases putPattern_ok hput honest with ⟨-, -, -, rfl, rfl⟩ | ⟨number, rfl, numbers, rfl⟩
    · exact .kept
    · rw [← seeded.id] at hread
      exact .put existing p numbers hread (seeded.upserted number)

end PatternStore

end HouseStyle
