import HouseStyle.Proofs.Compliance.Project
import HouseStyle.Proofs.Decimal.Order
import Mathlib

/-!
# What a check reports

Which pattern leads in a slot, and which observations conflict with it, is said here of the
patterns that a store holds, without any list of rows, search or sort. A check reports just
these conflicts, each once: those that an exception covers are counted, and the others are listed
as far as they are severe enough.
-/

namespace HouseStyle

/-! ## The rule -/

/-- The order of patterns in a slot: the more frequent first, of these the surer, of these the one
with the smaller id. -/
def Pattern.Precedes (p q : Pattern) : Prop :=
  q.frequency < p.frequency ∨ p.frequency = q.frequency ∧
    (q.confidence < p.confidence ∨ (p.confidence == q.confidence) = true ∧ p.id ≤ q.id)

namespace PatternStore

/-- A stored pattern of a slot that applies to files of a language. -/
structure Competes (store : PatternStore) (language : Option Language) (slot : String)
    (p : Pattern) : Prop where
  stored : ∃ row ∈ store.patterns, Pattern.ofRow row = .ok p
  slot : p.content.slot = slot
  applies : p.appliesTo language = true

/-- The first of all patterns that compete in a slot. -/
structure Dominates (store : PatternStore) (language : Option Language) (slot : String)
    (d : Pattern) : Prop where
  competes : store.Competes language slot d
  first : ∀ p, store.Competes language slot p → d.Precedes p

/-- An observation follows another rule than the dominant one of its slot, and no pattern with
that rule is seen as often. -/
structure ConflictsWith (store : PatternStore) (language : Option Language) (o : Observation)
    (d : Pattern) : Prop where
  dominates : store.Dominates language o.content.slot d
  differs : d.content ≠ o.content
  rarer : ∀ p, store.Competes language o.content.slot p → p.content = o.content →
    p.frequency < d.frequency

end PatternStore

/-! ## One order for rows and patterns -/

/-- What a row is ordered by, with the first row the least. -/
def PatternRow.precedence (row : PatternRow) : Int ×ₗ Int ×ₗ String :=
  toLex (-row.frequency, toLex (-Decimal.rank row.confidence, row.patternId))

/-- What a pattern is ordered by. -/
def Pattern.precedence (p : Pattern) : Int ×ₗ Int ×ₗ String :=
  toLex (-(p.frequency : Int), toLex (-Decimal.rank p.confidence, p.id))

namespace PatternStore

lemma leads_iff (a b : PatternRow) : leads a b = true ↔ a.precedence ≤ b.precedence := by
  simp [leads, PatternRow.precedence, Prod.Lex.toLex_le_toLex]

lemma leads_trans (a b c : PatternRow) (hab : leads a b = true) (hbc : leads b c = true) :
    leads a c = true := by
  rw [leads_iff] at hab hbc ⊢
  exact le_trans hab hbc

lemma leads_total (a b : PatternRow) : (leads a b || leads b a) = true := by
  rw [Bool.or_eq_true, leads_iff, leads_iff]
  exact le_total _ _

end PatternStore

namespace Pattern

lemma precedes_iff {p q : Pattern} (hp : p.confidence.isNaN = false)
    (hq : q.confidence.isNaN = false) : p.Precedes q ↔ p.precedence ≤ q.precedence := by
  rw [Precedes, ← Binary64.rank_lt_rank hq hp, ← Binary64.rank_eq_rank hp hq]
  simp [precedence, Prod.Lex.toLex_le_toLex]

lemma id_eq_of_precedence {p q : Pattern} (h : p.precedence = q.precedence) : p.id = q.id := by
  simp only [precedence, EmbeddingLike.apply_eq_iff_eq, Prod.mk.injEq] at h
  exact h.2.2

lemma frequency_le_of_precedence {p q : Pattern} (h : p.precedence ≤ q.precedence) :
    q.frequency ≤ p.frequency := by
  rw [precedence, precedence, Prod.Lex.toLex_le_toLex] at h
  rcases h with h | ⟨h, -⟩ <;> simp only at h <;> omega

/-- A row that tells its pattern's frequency is ordered as the pattern. -/
lemma precedence_ofRow {row : PatternRow} {p : Pattern} (h : ofRow row = .ok p)
    (counted : 0 ≤ row.frequency) : p.precedence = row.precedence := by
  have hcolumns := (ofRow_eq_ok_iff.mp h).2.2.2
  have hfrequency : p.frequency = readWord row.frequency := congrArg Pattern.frequency hcolumns
  have hconfidence : p.confidence = row.confidence := congrArg Pattern.confidence hcolumns
  rw [precedence, PatternRow.precedence, hfrequency, hconfidence, ofRow_id h,
    natCast_readWord counted]

end Pattern

/-! ## What competes is told apart -/

namespace PatternStore

variable {store : PatternStore} {language : Option Language} {slot : String} {p q : Pattern}

lemma Ruled.number (ruled : store.Ruled) (h : store.Competes language slot p) :
    p.confidence.isNaN = false := by
  obtain ⟨row, hrow, hp⟩ := h.stored
  have hconfidence : p.confidence = row.confidence :=
    congrArg Pattern.confidence (Pattern.ofRow_eq_ok_iff.mp hp).2.2.2
  rw [hconfidence]
  exact (ruled.rows row hrow).number

lemma Ruled.eq_of_id (ruled : store.Ruled) (hp : store.Competes language slot p)
    (hq : store.Competes language slot q) (h : p.id = q.id) : p = q := by
  obtain ⟨a, ha, hpa⟩ := hp.stored
  obtain ⟨b, hb, hqb⟩ := hq.stored
  rw [Pattern.ofRow_id hpa, Pattern.ofRow_id hqb] at h
  obtain rfl : a = b := List.inj_on_of_nodup_map ruled.nodup ha hb h
  exact Except.ok.inj (hpa.symm.trans hqb)

/-- There is one dominant pattern at most. -/
lemma Ruled.dominates_unique (ruled : store.Ruled) (hp : store.Dominates language slot p)
    (hq : store.Dominates language slot q) : p = q := by
  have hnumber := ruled.number hp.competes
  have hnumber' := ruled.number hq.competes
  have hpq := (Pattern.precedes_iff hnumber hnumber').mp (hp.first q hq.competes)
  have hqp := (Pattern.precedes_iff hnumber' hnumber).mp (hq.first p hp.competes)
  exact ruled.eq_of_id hp.competes hq.competes
    (Pattern.id_eq_of_precedence (le_antisymm hpq hqp))

/-! ## Slots -/

/-- The patterns of a slot as a check has them: all that compete, in their order. -/
structure Lists (store : PatternStore) (language : Option Language) (slot : SlotPatterns) :
    Prop where
  mem : ∀ p, p ∈ slot.patterns ↔ store.Competes language slot.slot p
  sorted : slot.patterns.Pairwise fun p q => p.precedence ≤ q.precedence

/-- Rows that are stored in the order of a slot need no sorting. -/
lemma slotPatterns_of_leads (h : store.patterns.Pairwise fun a b => leads a b = true)
    (language : Option Language) :
    store.slotPatterns language = fun slot => do
      let patterns ← (store.patterns.filter (·.slot == slot)).mapM Pattern.ofRow
      return ⟨slot, patterns.filter (·.appliesTo language)⟩ := by
  funext slot
  rw [slotPatterns, patternsInSlot, List.mergeSort_of_pairwise (h.filter _)]

/-- In a slot whose frequencies are no negative words, the patterns come in their order. -/
theorem Ruled.slotPatterns_ok (ruled : store.Ruled) (language : Option Language)
    (counted : ∀ row ∈ store.patterns, row.slot = slot → 0 ≤ row.frequency) :
    ∃ listed, store.slotPatterns language slot = .ok listed ∧ listed.slot = slot ∧
      store.Lists language listed := by
  have hrows : ∀ row, row ∈ store.patternsInSlot slot ↔ row ∈ store.patterns ∧ row.slot = slot := by
    simp [patternsInSlot]
  have hof : ∀ row ∈ store.patternsInSlot slot, ∃ p, Pattern.ofRow row = .ok p ∧
      Pattern.ofRow row = .ok p ∧ row.precedence = p.precedence := by
    intro row hrow
    obtain ⟨hmem, hslot⟩ := (hrows row).mp hrow
    obtain ⟨p, hp, -⟩ := (ruled.rows row hmem).reads
    exact ⟨p, hp, hp, (Pattern.precedence_ofRow hp (counted row hmem hslot)).symm⟩
  obtain ⟨patterns, hpatterns, hread⟩ := exists_mapM hof
  refine ⟨⟨slot, patterns.filter (·.appliesTo language)⟩, ?_, rfl, ?_, ?_⟩
  · simp [slotPatterns, hpatterns, bind, Except.bind, pure, Except.pure]
  · intro p
    rw [List.mem_filter]
    constructor
    · rintro ⟨hp, happlies⟩
      obtain ⟨row, hrow, hof, -⟩ := exists_left hread hp
      obtain ⟨hmem, hslot⟩ := (hrows row).mp hrow
      obtain ⟨p', hof', hslot'⟩ := (ruled.rows row hmem).reads
      obtain rfl := Except.ok.inj (hof.symm.trans hof')
      exact ⟨⟨row, hmem, hof⟩, hslot'.symm.trans hslot, happlies⟩
    · rintro ⟨⟨row, hmem, hof⟩, hslot, happlies⟩
      obtain ⟨p', hof', hslot'⟩ := (ruled.rows row hmem).reads
      obtain rfl := Except.ok.inj (hof.symm.trans hof')
      obtain ⟨q, hq, hofq, -⟩ := exists_right hread ((hrows row).mpr ⟨hmem, hslot'.trans hslot⟩)
      obtain rfl := Except.ok.inj (hof.symm.trans hofq)
      exact ⟨hq, happlies⟩
  · apply List.Pairwise.filter
    have hsorted : ((store.patternsInSlot slot).map PatternRow.precedence).Pairwise (· ≤ ·) :=
      List.pairwise_map.mpr ((List.pairwise_mergeSort leads_trans leads_total _).imp
        (leads_iff _ _).mp)
    rw [map_eq_map hread fun _ _ h => h.2] at hsorted
    exact List.pairwise_map.mp hsorted

variable {listed : SlotPatterns} {o : Observation} {d : Pattern}

/-- The leading pattern is the dominant one. -/
lemma Lists.leading?_iff (lists : store.Lists language listed) (ruled : store.Ruled) :
    listed.leading? = some d ↔ store.Dominates language listed.slot d := by
  have hhead : ∀ p, listed.leading? = some p → store.Dominates language listed.slot p := by
    intro p hp
    obtain ⟨rest, hpatterns⟩ := List.head?_eq_some_iff.mp hp
    have hcompetes := (lists.mem p).mp (by simp [hpatterns])
    refine ⟨hcompetes, fun q hq => ?_⟩
    rw [Pattern.precedes_iff (ruled.number hcompetes) (ruled.number hq)]
    have hmem := (lists.mem q).mpr hq
    have hsorted := lists.sorted
    rw [hpatterns] at hmem hsorted
    rcases List.mem_cons.mp hmem with rfl | hlater
    · exact le_rfl
    · exact List.rel_of_pairwise_cons hsorted hlater
  refine ⟨hhead d, fun hd => ?_⟩
  cases hleading : listed.leading? with
  | none =>
    have := (lists.mem d).mpr hd.competes
    rw [List.head?_eq_none_iff.mp hleading] at this
    cases this
  | some p => rw [ruled.dominates_unique (hhead p hleading) hd]

/-- A rule is established when some pattern with it is seen as often. -/
lemma Lists.isEstablished_iff (lists : store.Lists language listed) {content : PatternContent} :
    listed.isEstablished content d = true ↔ ∃ p, store.Competes language listed.slot p ∧
      p.content = content ∧ d.frequency ≤ p.frequency := by
  simp only [SlotPatterns.isEstablished, Option.any_eq_true, decide_eq_true_eq]
  constructor
  · rintro ⟨p, hfound, hle⟩
    exact ⟨p, (lists.mem p).mp (List.mem_of_find?_eq_some hfound),
      by simpa using List.find?_some hfound, hle⟩
  · rintro ⟨p, hp, hcontent, hle⟩
    have hmem := (lists.mem p).mpr hp
    cases hfound : listed.patterns.find? (·.content == content) with
    | none => exact absurd hcontent (by simpa using List.find?_eq_none.mp hfound p hmem)
    | some q =>
      refine ⟨q, rfl, hle.trans ?_⟩
      obtain ⟨-, before, after, hpatterns, hother⟩ := List.find?_eq_some_iff_append.mp hfound
      have hsorted := lists.sorted
      rw [hpatterns] at hmem hsorted
      -- the first pattern with the rule is the most frequent one
      rcases List.mem_append.mp hmem with hbefore | hrest
      · exact absurd hcontent (by simpa using hother p hbefore)
      · rcases List.mem_cons.mp hrest with rfl | hafter
        · exact le_rfl
        · have hlast := (List.pairwise_append.mp hsorted).2.1
          exact Pattern.frequency_le_of_precedence (List.rel_of_pairwise_cons hlast hafter)

/-- A check finds just the conflicts of an observation. -/
theorem Lists.conflict?_iff (lists : store.Lists language listed) (ruled : store.Ruled)
    (hslot : listed.slot = o.content.slot) :
    listed.conflict? o = some d ↔ store.ConflictsWith language o d := by
  simp only [SlotPatterns.conflict?, Option.filter_eq_some_iff, lists.leading?_iff ruled,
    Bool.and_eq_true, bne_iff_ne, Bool.not_eq_true', ← Bool.not_eq_true, lists.isEstablished_iff,
    hslot]
  constructor
  · rintro ⟨dominates, differs, rare⟩
    exact ⟨dominates, differs, fun p hp hcontent =>
      Nat.lt_of_not_le fun hle => rare ⟨p, hp, hcontent, hle⟩⟩
  · rintro ⟨dominates, differs, rarer⟩
    refine ⟨dominates, differs, ?_⟩
    rintro ⟨p, hp, hcontent, hle⟩
    exact Nat.not_le_of_lt (rarer p hp hcontent) hle

/-! ## Files -/

/-- The words in which the frequencies of the observed slots are stored are not negative. -/
def Counts (store : PatternStore) (observations : List Observation) : Prop :=
  ∀ row ∈ store.patterns, ∀ o ∈ observations, row.slot = o.content.slot → 0 ≤ row.frequency

theorem Ruled.slotsOf_ok {observations : List Observation} (ruled : store.Ruled)
    (language : Option Language) (counts : store.Counts observations) :
    ∃ slots, store.slotsOf language observations = .ok slots ∧
      ∀ o ∈ observations, ∃ listed, slots.find? (·.slot == o.content.slot) = some listed ∧
        listed.slot = o.content.slot ∧ store.Lists language listed := by
  have hslot : ∀ slot ∈ (observations.map (·.content.slot)).eraseDups,
      ∃ listed, store.slotPatterns language slot = .ok listed ∧ listed.slot = slot ∧
        store.Lists language listed := by
    intro slot hslot
    obtain ⟨o, ho, rfl⟩ := List.mem_map.mp (List.mem_eraseDups.mp hslot)
    exact ruled.slotPatterns_ok language fun row hrow => counts row hrow o ho
  obtain ⟨slots, hslots, hlisted⟩ := exists_mapM hslot
  refine ⟨slots, hslots, fun o ho => ?_⟩
  obtain ⟨listed, hmem, hslot, -⟩ := exists_right hlisted
    (List.mem_eraseDups.mpr (List.mem_map_of_mem (f := (·.content.slot)) ho))
  cases hfound : slots.find? (·.slot == o.content.slot) with
  | none => exact absurd hslot (by simpa using List.find?_eq_none.mp hfound listed hmem)
  | some found =>
    obtain ⟨_, -, -, lists⟩ := exists_left hlisted (List.mem_of_find?_eq_some hfound)
    exact ⟨found, rfl, by simpa using List.find?_some hfound, lists⟩

open Classical in
/-- The conflicts of a file are the observations that conflict with a pattern, each once and in
their order, with that pattern. -/
structure Finds (store : PatternStore) (language : Option Language)
    (observations : List Observation) (conflicts : List Conflict) : Prop where
  observed : conflicts.map (·.observation) =
    observations.filter fun o => ∃ d, store.ConflictsWith language o d
  named : ∀ c ∈ conflicts, store.ConflictsWith language c.observation c.pattern

open Classical in
lemma finds_filterMap {observations : List Observation} {find? : Observation → Option Conflict}
    (hfind : ∀ o ∈ observations, ∀ c, find? o = some c ↔
      c.observation = o ∧ store.ConflictsWith language o c.pattern) :
    store.Finds language observations (observations.filterMap find?) := by
  constructor
  · induction observations with
    | nil => rfl
    | cons o observations ih =>
      have hrest := ih fun later hlater => hfind later (by simp [hlater])
      cases hfound : find? o with
      | none =>
        have hnone : ¬ ∃ d, store.ConflictsWith language o d := by
          rintro ⟨d, hd⟩
          have := (hfind o (by simp) ⟨o, d⟩).mpr ⟨rfl, hd⟩
          rw [hfound] at this
          cases this
        rw [List.filterMap_cons_none hfound, List.filter_cons_of_neg (by simpa using hnone), hrest]
      | some c =>
        obtain ⟨hobservation, hconflict⟩ := (hfind o (by simp) c).mp hfound
        rw [List.filterMap_cons_some hfound,
          List.filter_cons_of_pos (by simpa using ⟨_, hconflict⟩),
          List.map_cons, hrest, hobservation]
  · intro c hc
    obtain ⟨o, ho, hfound⟩ := List.mem_filterMap.mp hc
    obtain ⟨rfl, hconflict⟩ := (hfind o ho c).mp hfound
    exact hconflict

/-- A check finds the conflicts of a file. -/
theorem Ruled.conflictsIn_ok {observations : List Observation} (ruled : store.Ruled)
    (counts : store.Counts observations) (path : String) :
    ∃ conflicts, store.conflictsIn path observations = .ok conflicts ∧
      store.Finds (Language.ofPath? path) observations conflicts := by
  obtain ⟨slots, hslots, hfound⟩ := ruled.slotsOf_ok (Language.ofPath? path) counts
  refine ⟨_, by rw [conflictsIn, hslots]; rfl, finds_filterMap fun o ho c => ?_⟩
  obtain ⟨listed, hlisted, hslot, lists⟩ := hfound o ho
  simp only [Conflict.ofObservation?, hlisted, Option.bind_eq_bind, Option.bind_some,
    Option.bind_eq_some_iff, lists.conflict?_iff ruled hslot, Option.some.injEq]
  constructor
  · rintro ⟨d, hd, rfl⟩
    exact ⟨rfl, hd⟩
  · rintro ⟨rfl, hd⟩
    exact ⟨c.pattern, hd, rfl⟩

end PatternStore

/-! ## Reports -/

/-- The violation that a conflict amounts to. -/
def Conflict.violation (policy : SeverityPolicy) (options : CheckOptions) (path : String)
    (c : Conflict) : Violation where
  patternId := c.pattern.id
  filePath := path
  lineStart := c.observation.line
  lineEnd := c.observation.line
  severity := policy.classify c.pattern.confidence
  confidence := c.pattern.confidence
  message := c.message
  fix :=
    if options.suggestFixes then SuggestedFix.suggest? c.observation c.pattern.content else none

/-- Whether a conflict is severe enough to be listed. -/
def Conflict.isListed (policy : SeverityPolicy) (options : CheckOptions) (c : Conflict) : Bool :=
  options.threshold.level ≤ (policy.classify c.pattern.confidence).level

lemma filterMap_violation? (policy : SeverityPolicy) (options : CheckOptions) (path : String)
    (conflicts : List Conflict) :
    conflicts.filterMap (Conflict.violation? policy options path) =
      (conflicts.filter (Conflict.isListed policy options)).map
        (Conflict.violation policy options path) := by
  induction conflicts with
  | nil => rfl
  | cons c conflicts ih =>
    by_cases h : (policy.classify c.pattern.confidence).level < options.threshold.level
    · rw [List.filterMap_cons_none (by simp [Conflict.violation?, h]),
        List.filter_cons_of_neg (by simp [Conflict.isListed, h]), ih]
    · rw [List.filterMap_cons_some (b := Conflict.violation policy options path c)
          (by simp [Conflict.violation?, Conflict.violation, h]),
        List.filter_cons_of_pos (by simpa [Conflict.isListed] using h), List.map_cons, ih]

namespace Violation

lemma before_iff (v w : Violation) : v.before w = true ↔
    v.lineStart < w.lineStart ∨ v.lineStart = w.lineStart ∧ v.patternId ≤ w.patternId := by
  simp [before]

lemma before_iff_le (v w : Violation) : v.before w = true ↔
    toLex (v.lineStart, v.patternId) ≤ toLex (w.lineStart, w.patternId) := by
  rw [before_iff, Prod.Lex.toLex_le_toLex]

lemma before_trans (u v w : Violation) (huv : u.before v = true) (hvw : v.before w = true) :
    u.before w = true := by
  rw [before_iff_le] at huv hvw ⊢
  exact le_trans huv hvw

lemma before_total (v w : Violation) : (v.before w || w.before v) = true := by
  rw [Bool.or_eq_true, before_iff_le, before_iff_le]
  exact le_total _ _

end Violation

lemma SeverityPolicy.score_eq (policy : SeverityPolicy) (found : List Severity) :
    policy.score found = 100 - (found.map policy.penalty).sum := by
  unfold score
  congr 1
  induction found with
  | nil => rfl
  | cons severity found ih => rw [List.foldr_cons, List.map_cons, List.sum_cons, ih]

open Classical in
/-- What a report of a file says of its conflicts. Those without an exception that are severe
enough are its violations, by line and then by pattern; those with an exception are counted. -/
structure ComplianceReport.Tells (store : PatternStore) (policy : SeverityPolicy)
    (options : CheckOptions) (path : String) (conflicts : List Conflict)
    (report : ComplianceReport) : Prop where
  filePath : report.filePath = path
  violations : report.violations.Perm ((conflicts.filter fun c =>
    ¬ store.Excepts c.pattern.id path ∧
      options.threshold.level ≤ (policy.classify c.pattern.confidence).level).map
    (Conflict.violation policy options path))
  sorted : report.violations.Pairwise fun v w =>
    v.lineStart < w.lineStart ∨ v.lineStart = w.lineStart ∧ v.patternId ≤ w.patternId
  suppressed : report.suppressed =
    (conflicts.filter fun c => store.Excepts c.pattern.id path).length
  score : report.score = 100 - (report.violations.map fun v => policy.penalty v.severity).sum

namespace PatternStore

variable {store : PatternStore} {path : String} {observations : List Observation}
  {conflicts : List Conflict}

/-- The violations that are reported of conflicts, in their order. -/
def violationsOf (store : PatternStore) (policy : SeverityPolicy) (options : CheckOptions)
    (path : String) (conflicts : List Conflict) : List Violation :=
  (((conflicts.filter fun c => !store.silences c.pattern.id path).filter
    (Conflict.isListed policy options)).map (Conflict.violation policy options path)).mergeSort
    Violation.before

/-- The report that is made of conflicts. -/
def reportOf (store : PatternStore) (policy : SeverityPolicy) (options : CheckOptions)
    (path : String) (degraded : Bool) (conflicts : List Conflict) : ComplianceReport where
  filePath := path
  violations := store.violationsOf policy options path conflicts
  score := policy.score ((store.violationsOf policy options path conflicts).map (·.severity))
  degraded := degraded
  suppressed := conflicts.countP fun c => store.silences c.pattern.id path

lemma report_eq (hconflicts : store.conflictsIn path observations = .ok conflicts)
    (policy : SeverityPolicy) (options : CheckOptions) (degraded : Bool) :
    store.report policy options path degraded observations =
      .ok (store.reportOf policy options path degraded conflicts) := by
  rw [report, hconflicts]
  simp only [bind, Except.bind, pure, Except.pure, List.partition_eq_filter_filter,
    filterMap_violation?, reportOf, List.countP_eq_length_filter]
  rfl

/-- A report tells of the conflicts that it is made of. -/
theorem Ruled.reportOf_tells (ruled : store.Ruled) (policy : SeverityPolicy)
    (options : CheckOptions) (path : String) (degraded : Bool) (conflicts : List Conflict) :
    (store.reportOf policy options path degraded conflicts).Tells store policy options path
      conflicts := by
  classical
  have hsilenced : ∀ c : Conflict, store.silences c.pattern.id path =
      decide (store.Excepts c.pattern.id path) := fun c =>
    Bool.eq_iff_iff.mpr (ruled.silences_iff.trans decide_eq_true_iff.symm)
  exact {
    filePath := rfl
    violations := by
      refine (List.mergeSort_perm _ _).trans (.of_eq (congrArg _ ?_))
      rw [List.filter_filter]
      refine List.filter_congr fun c _ => ?_
      simp [hsilenced, Conflict.isListed, Bool.and_comm]
    sorted := (List.pairwise_mergeSort Violation.before_trans Violation.before_total _).imp
      (Violation.before_iff _ _).mp
    suppressed := by simp only [reportOf, hsilenced, List.countP_eq_length_filter]
    score := by
      rw [reportOf, SeverityPolicy.score_eq, List.map_map]
      rfl }

end PatternStore

/-- The history gets the violations of a report, if that is asked for and there are any. -/
lemma PatternStore.recordHistory_ok {store : PatternStore} {options : CheckOptions}
    (writable : options.trackHistory = true →
      store.faults.allows .violations .insert = .ok true) (now : Int)
    (report : ComplianceReport) :
    ∃ after, store.recordHistory options now report = .ok after ∧
      if options.trackHistory = true ∧ report.violations ≠ [] then
        ∃ numbers, after = { store with
          violations := store.violations ++ report.violations.map (Violation.toRow now), numbers }
      else after = store := by
  unfold recordHistory
  by_cases tracked : options.trackHistory = true
  · by_cases hnone : report.violations = []
    · refine ⟨store, ?_, by simp [hnone]⟩
      simp [tracked, hnone, insertViolations, Table.appendAll, RowNumbers.add, bind, Except.bind,
        pure, Except.pure]
    · have hsome : (report.violations.map (Violation.toRow now)).isEmpty = false := by
        simpa using hnone
      refine ⟨{ store with
        violations := store.violations ++ report.violations.map (Violation.toRow now)
        numbers := store.numbers.add .violations report.violations.length }, ?_, ?_⟩
      · simp [tracked, insertViolations, Table.appendAll, hnone, writable tracked, bind,
          Except.bind, pure, Except.pure]
      · rw [if_pos ⟨tracked, hnone⟩]
        exact ⟨_, rfl⟩
  · exact ⟨store, by simp [tracked], by simp [tracked]⟩

namespace FileCheck

/-- The report that a check makes of the conflicts in the file with a normalized path. -/
def reportOf (check : FileCheck) (store : PatternStore) (path : String)
    (conflicts : List Conflict) : ComplianceReport :=
  store.reportOf check.policy check.options path
    (extractOrNothing check.extract path check.code).degraded conflicts

/-- A check with an accepted path reports the conflicts that it finds and keeps the reported
violations in the history, if that is asked for. -/
theorem perform_ok {store : PatternStore} {check : FileCheck} {path : String}
    (hpath : checkablePath check.path = .ok path) {conflicts : List Conflict}
    (hconflicts : store.conflictsIn path (check.observations path) = .ok conflicts)
    (writable : check.options.trackHistory = true →
      store.faults.allows .violations .insert = .ok true) (now : Int) :
    (check.perform now store).result = .ok (check.reportOf store path conflicts) ∧
      if check.options.trackHistory = true ∧ (check.reportOf store path conflicts).violations ≠ []
      then ∃ numbers, (check.perform now store).store = { store with
        violations := store.violations ++
          (check.reportOf store path conflicts).violations.map (Violation.toRow now), numbers }
      else (check.perform now store).store = store := by
  have hreport := PatternStore.report_eq hconflicts check.policy check.options
    (extractOrNothing check.extract path check.code).degraded
  rw [← FileCheck.reportOf] at hreport
  generalize check.reportOf store path conflicts = report at hreport ⊢
  obtain ⟨after, hafter, hkept⟩ := PatternStore.recordHistory_ok writable now report
  have hperform : check.perform now store = ⟨after, .ok report, report.violations.map fun v =>
      .violationDetected v.patternId v.filePath v.lineStart v.severity.name⟩ := by
    rw [observations] at hreport
    simp [perform, checkCompliance, hpath, hreport, hafter, bind, Except.bind, pure, Except.pure]
  rw [hperform]
  exact ⟨rfl, hkept⟩

/-- Whatever was asked of a project before, a check of an accepted path reports just the
observations that conflict with the dominant pattern of their slot. This needs frequencies below
the upper half of the words in the slots that the file has observations of. -/
theorem perform_exact (projectId : String) (calls : List ProjectCall) (faults : Faults)
    (check : FileCheck) (now : Int) {path : String} (hpath : checkablePath check.path = .ok path)
    (counts : (ProjectCall.run projectId .empty calls).Counts (check.observations path))
    (writable : check.options.trackHistory = true →
      faults.allows .violations .insert = .ok true) :
    let store := (ProjectCall.run projectId .empty calls).under faults
    ∃ conflicts report,
      store.Finds (Language.ofPath? path) (check.observations path) conflicts ∧
      (check.perform now store).result = .ok report ∧
      report.Tells store check.policy check.options path conflicts ∧
      if check.options.trackHistory = true ∧ report.violations ≠ [] then
        ∃ numbers, (check.perform now store).store = { store with
          violations := store.violations ++ report.violations.map (Violation.toRow now), numbers }
      else (check.perform now store).store = store := by
  intro store
  have ruled : store.Ruled :=
    (ProjectCall.run_ruled projectId calls PatternStore.ruled_empty).1.under faults
  obtain ⟨conflicts, hconflicts, finds⟩ := ruled.conflictsIn_ok counts path
  obtain ⟨hresult, hkept⟩ := perform_ok hpath hconflicts writable now
  exact ⟨conflicts, _, finds, hresult, ruled.reportOf_tells .., hkept⟩

/-! Two variables are checked against two styles that were brought in, of which neither is that of
the first variable. -/

def sampleStyles (camel pascal : Nat) : List ProjectCall :=
  [.learn (LearnerRun.sampleCall (.importSeeds
    [⟨.naming .variable .camel, camel, 0.5, []⟩, ⟨.naming .variable .pascal, pascal, 0.9, []⟩]))]

def sampleCheck : FileCheck where
  policy := ⟨0.8, 0.6, 10, 5, 2⟩
  extract := fun _ _ =>
    .ok ⟨[⟨"user_id", .variable, 0.5, 1, 1⟩, ⟨"UserName", .variable, 0.5, 2, 2⟩], false⟩
  code := "const user_id = 1\nconst UserName = 2\n"
  path := "a.ts"
  options := ⟨.low, false, true⟩

lemma sampleStyles_counts : (ProjectCall.run "a" .empty (sampleStyles 5 3)).Counts
    (sampleCheck.observations "a.ts") := by
  have hall : ((ProjectCall.run "a" .empty (sampleStyles 5 3)).patterns.all
      fun row => 0 ≤ row.frequency) = true := by decide +kernel
  intro row hrow _ _ _
  simpa using List.all_eq_true.mp hall row hrow

theorem sampleStyles_exact :
    let store := (ProjectCall.run "a" .empty (sampleStyles 5 3)).under .none
    ∃ conflicts report,
      store.Finds (Language.ofPath? "a.ts") (sampleCheck.observations "a.ts") conflicts ∧
      (sampleCheck.perform 0 store).result = .ok report ∧
      report.Tells store sampleCheck.policy sampleCheck.options "a.ts" conflicts ∧
      if sampleCheck.options.trackHistory = true ∧ report.violations ≠ [] then
        ∃ numbers, (sampleCheck.perform 0 store).store = { store with
          violations := store.violations ++ report.violations.map (Violation.toRow 0), numbers }
      else (sampleCheck.perform 0 store).store = store :=
  perform_exact "a" (sampleStyles 5 3) .none sampleCheck 0 rfl sampleStyles_counts fun _ => rfl

/-- A test of what came out shows that something did. -/
lemma ok_of_any {ε α : Type} {result : Except ε α} {test : α → Bool}
    (h : result.toOption.any test = true) : ∃ a, result = .ok a ∧ test a = true := by
  cases result with
  | error error => cases h
  | ok a => exact ⟨a, rfl, h⟩

/-- Frequencies of the upper half: both are stored as negative words, and read as 0. -/
def sampleWrapped : PatternStore :=
  (ProjectCall.run "a" .empty (sampleStyles 18446744073709551615 9223372036854775808)).under .none

def sampleCamel : String := PatternContent.id (.naming .variable .camel)

lemma sampleWrapped_stored :
    sampleWrapped.patterns.map (fun row => (row.patternId == sampleCamel, row.frequency)) =
      [(true, -1), (false, -9223372036854775808)] ∧
    (sampleWrapped.patterns.Pairwise fun a b => PatternStore.leads a b = true) ∧
    sampleWrapped.silences sampleCamel "a.ts" = false := by
  decide +kernel

lemma sampleWrapped_conflicts : ∃ c,
    sampleWrapped.conflictsIn "a.ts" (sampleCheck.observations "a.ts") = .ok [c] ∧
      c.pattern.id = sampleCamel ∧ c.observation.line = 1 := by
  have hfound : (sampleWrapped.conflictsIn "a.ts" (sampleCheck.observations "a.ts")).toOption.any
      (fun conflicts => decide (conflicts.length = 1 ∧
        ∀ c ∈ conflicts, c.pattern.id = sampleCamel ∧ c.observation.line = 1)) = true := by
    rw [PatternStore.conflictsIn, PatternStore.slotsOf,
      PatternStore.slotPatterns_of_leads sampleWrapped_stored.2.1]
    decide +kernel
  obtain ⟨conflicts, hconflicts, hall⟩ := ok_of_any hfound
  obtain ⟨hlength, hall⟩ := of_decide_eq_true hall
  obtain ⟨c, rfl⟩ := List.length_eq_one_iff.mp hlength
  exact ⟨c, hconflicts, hall c (by simp)⟩

lemma sampleWrapped_loaded : ∃ p q, sampleWrapped.patterns.mapM Pattern.ofRow = .ok [p, q] ∧
    (q.id ≠ sampleCamel ∧ q.content.slot = p.content.slot ∧ q.languages = []) ∧
    p.frequency = q.frequency ∧ ¬ q.confidence < p.confidence ∧
    ¬ (p.confidence == q.confidence) = true := by
  have hread : (sampleWrapped.patterns.mapM Pattern.ofRow).toOption.any
      (fun patterns => decide (patterns.length = 2 ∧ patterns.Pairwise fun p q =>
        (q.id ≠ sampleCamel ∧ q.content.slot = p.content.slot ∧ q.languages = []) ∧
        p.frequency = q.frequency ∧ ¬ q.confidence < p.confidence ∧
        ¬ (p.confidence == q.confidence) = true)) = true := by
    decide +kernel
  obtain ⟨patterns, hpatterns, hall⟩ := ok_of_any hread
  obtain ⟨hlength, hpair⟩ := of_decide_eq_true hall
  obtain ⟨p, q, rfl⟩ := List.length_eq_two.mp hlength
  exact ⟨p, q, hpatterns, List.rel_of_pairwise_cons hpair (by simp)⟩

/-- By the words that are stored, the second variable is missing, since its style is stored with a
smaller word than the other one. By the frequencies that are read, the first variable is held to
the wrong style. -/
theorem sampleWrapped_inexact :
    sampleWrapped.patterns.map (fun row => (row.patternId == sampleCamel, row.frequency)) =
      [(true, -1), (false, -9223372036854775808)] ∧
    ∃ report, (sampleCheck.perform 0 sampleWrapped).result = .ok report ∧
      report.violations.map (fun v => (v.patternId, v.lineStart)) = [(sampleCamel, 1)] ∧
      ∀ conflicts, sampleWrapped.Finds (Language.ofPath? "a.ts")
          (sampleCheck.observations "a.ts") conflicts →
        ¬ report.Tells sampleWrapped sampleCheck.policy sampleCheck.options "a.ts" conflicts := by
  refine ⟨sampleWrapped_stored.1, ?_⟩
  obtain ⟨c, hconflicts, hid, hline⟩ := sampleWrapped_conflicts
  have hpath : checkablePath sampleCheck.path = .ok "a.ts" := rfl
  obtain ⟨hresult, -⟩ := perform_ok hpath hconflicts (fun _ => rfl) 0
  have hviolations : (sampleCheck.reportOf sampleWrapped "a.ts" [c]).violations =
      [c.violation sampleCheck.policy sampleCheck.options "a.ts"] := by
    simp [reportOf, PatternStore.reportOf, PatternStore.violationsOf, hid,
      sampleWrapped_stored.2.2, Conflict.isListed, sampleCheck, Severity.level]
  refine ⟨_, hresult, by simp [hviolations, Conflict.violation, hid, hline], ?_⟩
  intro conflicts finds tells
  obtain ⟨p, q, hread, ⟨hother, hslot, hlanguages⟩, hfrequency, hless, hsame⟩ :=
    sampleWrapped_loaded
  have hmem := tells.violations.mem_iff.mp (hviolations ▸ List.mem_singleton_self _)
  obtain ⟨found, hfound, hviolation⟩ := List.mem_map.mp hmem
  have hcamel : found.pattern.id = sampleCamel :=
    (congrArg Violation.patternId hviolation).trans hid
  have dominates := (finds.named found (List.mem_filter.mp hfound).1).dominates
  have hrows := mapM_eq_ok.mp hread
  obtain ⟨row, hrow, hof⟩ := dominates.competes.stored
  obtain ⟨r, hr, hof'⟩ := exists_right hrows hrow
  have hp : found.pattern = p := by
    obtain rfl := Except.ok.inj (hof.symm.trans hof')
    simp only [List.mem_cons, List.not_mem_nil, or_false] at hr
    exact hr.resolve_right fun hq => hother (hq ▸ hcamel)
  obtain ⟨rival, hrival, hofq⟩ := exists_left hrows (y := q) (by simp)
  have competes : sampleWrapped.Competes (Language.ofPath? "a.ts")
      found.observation.content.slot q :=
    { stored := ⟨rival, hrival, hofq⟩
      slot := by rw [hslot, ← hp, dominates.competes.slot]
      applies := by simp [Pattern.appliesTo, hlanguages] }
  have hprecedes := dominates.first q competes
  rw [hp] at hprecedes
  rcases hprecedes with h | ⟨-, h | ⟨h, -⟩⟩
  · omega
  · exact hless h
  · exact hsame h

end FileCheck

end HouseStyle
