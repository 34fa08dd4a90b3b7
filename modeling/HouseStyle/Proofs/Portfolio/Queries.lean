import HouseStyle.Portfolio.View
import HouseStyle.Proofs.Decimal.Order
import HouseStyle.Proofs.Json.Lenient
import HouseStyle.Proofs.Portfolio.Consistency
import Mathlib.Data.Prod.Lex

/-!
# Queries are exact

A query shows what its filter admits of one list of all aggregations, which does not depend on
the filter, and cuts it to its limit. The scan that ends early leaves out nothing that would have
been shown, and the languages of a row are found in the text that they were written as.
-/

namespace HouseStyle

namespace Portfolio

variable {portfolio : Portfolio} {query : Query}
variable {rows found : List AggregationRow} {fits : AggregationRow → Bool}

/-! ## The ranking -/

/-- Where a row stands by its projects and its confidence, from the front. -/
def standing (row : AggregationRow) : Int ×ₗ Int :=
  toLex (-row.occurrenceCount, -Decimal.rank row.aggregatedConfidence)

/-- Where a row stands in the answer to a query. -/
def seat (row : AggregationRow) : (Int ×ₗ Int) ×ₗ String := toLex (standing row, row.signature)

lemma scansBefore_iff (a b : AggregationRow) : scansBefore a b = true ↔ standing a ≤ standing b := by
  rw [standing, standing, Prod.Lex.toLex_le_toLex]
  simp [scansBefore]

lemma ranksBefore_iff (a b : AggregationRow) :
    ranksBefore a b = true ↔ seat a ≤ seat b := by
  rw [seat, seat, Prod.Lex.toLex_le_toLex]
  simp only [standing, Prod.Lex.toLex_lt_toLex, toLex_inj, Prod.mk.injEq, ranksBefore,
    Bool.or_eq_true, Bool.and_eq_true, decide_eq_true_eq, beq_iff_eq, neg_lt_neg_iff, neg_inj]
  tauto

/-- Sorting by an order that compares keys sorts the keys. -/
lemma pairwise_keys {κ : Type} [LinearOrder κ] {key : AggregationRow → κ}
    {before : AggregationRow → AggregationRow → Bool}
    (h : ∀ a b, before a b = true ↔ key a ≤ key b) (rows : List AggregationRow) :
    (rows.mergeSort before).Pairwise fun a b => key a ≤ key b := by
  refine (List.pairwise_mergeSort ?_ ?_ rows).imp (h _ _).mp
  · intro a b c hab hbc
    exact (h a c).mpr (((h a b).mp hab).trans ((h b c).mp hbc))
  · intro a b
    rw [Bool.or_eq_true, h, h]
    exact le_total _ _

lemma pairwise_ranked (rows : List AggregationRow) :
    (rows.mergeSort ranksBefore).Pairwise fun a b => seat a ≤ seat b :=
  pairwise_keys ranksBefore_iff rows

/-- Rows with different signatures have one ranking. -/
lemma ranked_eq {ranked : List AggregationRow} (distinct : (rows.map (·.signature)).Nodup)
    (perm : ranked.Perm rows) (sorted : ranked.Pairwise fun a b => seat a ≤ seat b) :
    rows.mergeSort ranksBefore = ranked := by
  have hperm : (rows.mergeSort ranksBefore).Perm rows := List.mergeSort_perm _ _
  refine List.Perm.eq_of_pairwise ?_ (pairwise_ranked rows) sorted (hperm.trans perm.symm)
  intro a b ha hb hab hba
  have hseat : toLex (standing a, a.signature) = toLex (standing b, b.signature) :=
    le_antisymm hab hba
  rw [toLex_inj, Prod.mk.injEq] at hseat
  exact List.inj_on_of_nodup_map distinct (hperm.mem_iff.mp ha) (perm.mem_iff.mp hb) hseat.2

/-- The rows that fit are ranked like all rows. -/
lemma ranked_filter (distinct : (rows.map (·.signature)).Nodup)
    (fits : AggregationRow → Bool) :
    (rows.filter fits).mergeSort ranksBefore = (rows.mergeSort ranksBefore).filter fits :=
  ranked_eq (distinct.sublist (List.filter_sublist.map _))
    ((List.mergeSort_perm _ _).filter _) ((pairwise_ranked rows).filter _)

/-- Rows that stand apart are ranked apart. -/
lemma ranked_append {front rest : List AggregationRow}
    (distinct : ((front ++ rest).map (·.signature)).Nodup)
    (apart : ∀ a ∈ front, ∀ b ∈ rest, standing a < standing b) :
    (front ++ rest).mergeSort ranksBefore =
      front.mergeSort ranksBefore ++ rest.mergeSort ranksBefore := by
  have hfront : (front.mergeSort ranksBefore).Perm front := List.mergeSort_perm _ _
  have hrest : (rest.mergeSort ranksBefore).Perm rest := List.mergeSort_perm _ _
  refine ranked_eq distinct (hfront.append hrest) (List.pairwise_append.mpr
    ⟨pairwise_ranked front, pairwise_ranked rest, fun a ha b hb => ?_⟩)
  have hlt := apart a (hfront.mem_iff.mp ha) b (hrest.mem_iff.mp hb)
  exact le_of_lt (Prod.Lex.toLex_lt_toLex.mpr (.inl hlt))

/-! ## The scan -/

/-- A query that decides about every row keeps those that fit. -/
lemma filterM_eq (h : ∀ row ∈ rows, query.fits row = .ok (fits row)) :
    rows.filterM query.fits = .ok (rows.filter fits) := by
  have haux : ∀ kept : List AggregationRow, List.filterAuxM query.fits rows kept =
      .ok ((rows.filter fits).reverse ++ kept) := by
    induction rows with
    | nil => exact fun _ => rfl
    | cons row rows ih =>
      obtain ⟨hrow, hrows⟩ := List.forall_mem_cons.mp h
      intro kept
      rw [List.filterAuxM, hrow]
      refine (ih hrows _).trans ?_
      cases hfits : fits row <;> simp [hfits]
  rw [List.filterM, haux]
  simp

/-- The scan keeps a front of what fits, and leaves out nothing or what is worse than the front,
which is long enough then. -/
lemma scan_eq {most : Nat} (h : ∀ row ∈ rows, query.fits row = .ok (fits row)) :
    ∃ kept left, scan query most found rows = .ok kept ∧
      kept ++ left = found.reverse ++ rows.filter fits ∧
      (left = [] ∨ most ≤ kept.length ∧
        ∀ last ∈ kept.getLast?, ∀ next ∈ left.head?, tie next last = false) := by
  induction rows generalizing found with
  | nil => exact ⟨found.reverse, [], rfl, by simp, .inl rfl⟩
  | cons row rows ih =>
    obtain ⟨hrow, hrows⟩ := List.forall_mem_cons.mp h
    rw [scan, hrow]
    change ∃ kept left, (if fits row then _ else _) = _ ∧ _
    cases hfits : fits row with
    | false =>
      rw [List.filter_cons_of_neg (by simp [hfits])]
      exact ih hrows
    | true =>
      rw [List.filter_cons_of_pos hfits, if_pos rfl]
      by_cases hcut : (most ≤ found.length && !found.head?.any (tie row)) = true
      · rw [if_pos hcut]
        rw [Bool.and_eq_true, decide_eq_true_eq, Bool.not_eq_true'] at hcut
        refine ⟨found.reverse, row :: rows.filter fits, rfl, rfl, .inr ⟨?_, ?_⟩⟩
        · rw [List.length_reverse]
          exact hcut.1
        · intro last hlast next hnext
          obtain rfl : row = next := by simpa using hnext
          rw [List.getLast?_reverse] at hlast
          have hany := hcut.2
          rw [Option.mem_def.mp hlast] at hany
          exact hany
      · rw [if_neg hcut]
        obtain ⟨kept, left, hscan, hsplit, hleft⟩ := @ih (row :: found) hrows
        exact ⟨kept, left, hscan, by rw [hsplit]; simp, hleft⟩

/-- Those that are kept stand before those that are left out. -/
lemma standing_lt_of_tie {kept left : List AggregationRow}
    (sorted : (kept ++ left).Pairwise fun a b => standing a ≤ standing b)
    (h : ∀ last ∈ kept.getLast?, ∀ next ∈ left.head?, tie next last = false) :
    ∀ a ∈ kept, ∀ b ∈ left, standing a < standing b := by
  intro a ha b hb
  obtain ⟨hkept, hleft, hacross⟩ := List.pairwise_append.mp sorted
  obtain ⟨front, last, rfl⟩ := List.eq_nil_or_concat kept |>.resolve_left (List.ne_nil_of_mem ha)
  obtain ⟨next, rest, rfl⟩ := List.exists_cons_of_ne_nil (List.ne_nil_of_mem hb)
  have htie := h last (by simp) next rfl
  have hle : standing last ≤ standing next := hacross last (by simp) next (by simp)
  have hlt : standing last < standing next := by
    refine lt_of_le_of_ne hle fun heq => ?_
    rw [tie, (scansBefore_iff _ _).mpr heq.ge, (scansBefore_iff _ _).mpr heq.le] at htie
    cases htie
  have hfirst : standing a ≤ standing last := by
    rw [List.concat_eq_append] at ha hkept
    rcases List.mem_append.mp ha with ha | ha
    · exact (List.pairwise_append.mp hkept).2.2 a ha last (by simp)
    · rw [List.mem_singleton.mp ha]
  have hlast : standing next ≤ standing b := by
    rcases List.mem_cons.mp hb with rfl | hb
    · exact le_refl _
    · exact (List.pairwise_cons.mp hleft).1 b hb
  exact hfirst.trans_lt (hlt.trans_le hlast)

/-- A query that decides about every row shows the best of those that fit. -/
theorem query_eq (distinct : portfolio.Distinct)
    (h : ∀ row ∈ portfolio.aggregations, query.fits row = .ok (fits row))
    (limited : 0 ≤ query.limit) :
    portfolio.query query =
      .ok (((portfolio.aggregations.mergeSort ranksBefore).filter fits).take
        query.limit.toNat) := by
  by_cases hzero : query.limit = 0
  · rw [Portfolio.query, if_pos hzero, hzero]
    rfl
  have hmost : (if query.limit < 0 then portfolio.aggregations.length else query.limit.toNat) =
      query.limit.toNat := if_neg (by omega)
  rw [Portfolio.query, if_neg hzero]
  simp only [hmost]
  cases hcategory : query.category with
  | some category =>
    simp only [filterM_eq h]
    change Except.ok _ = _
    rw [ranked_filter distinct]
  | none =>
    -- what the scan leaves out stands behind all that it keeps, so it is cut off either way
    have hperm : (portfolio.aggregations.mergeSort scansBefore).Perm portfolio.aggregations :=
      List.mergeSort_perm _ _
    obtain ⟨kept, left, hscan, hsplit, hleft⟩ := @scan_eq query
      (portfolio.aggregations.mergeSort scansBefore) [] fits query.limit.toNat
      fun row hrow => h row (hperm.mem_iff.mp hrow)
    rw [List.reverse_nil, List.nil_append] at hsplit
    have hfitting : (kept ++ left).Perm (portfolio.aggregations.filter fits) := by
      rw [hsplit]
      exact hperm.filter fits
    have hdistinct : ((portfolio.aggregations.filter fits).map (·.signature)).Nodup :=
      distinct.sublist (List.filter_sublist.map _)
    have hranked : (portfolio.aggregations.mergeSort ranksBefore).filter fits =
        (kept ++ left).mergeSort ranksBefore := by
      rw [← ranked_filter distinct]
      exact ranked_eq hdistinct ((List.mergeSort_perm _ _).trans hfitting) (pairwise_ranked _)
    simp only [hscan, hranked]
    change Except.ok _ = _
    rcases hleft with rfl | ⟨henough, htie⟩
    · rw [List.append_nil]
    · have hsorted : (kept ++ left).Pairwise fun a b => standing a ≤ standing b := by
        rw [hsplit]
        exact (pairwise_keys scansBefore_iff _).filter _
      rw [ranked_append ((hfitting.map _).nodup_iff.mpr hdistinct)
        (standing_lt_of_tie hsorted htie), List.take_append_of_le_length]
      rwa [List.length_mergeSort]

end Portfolio

/-! ## Aggregations as they are shown -/

namespace Aggregation

/-- More projects first, of these the surer, of these by the signature. -/
def Before (a b : Aggregation) : Prop :=
  b.projectCount < a.projectCount ∨ a.projectCount = b.projectCount ∧
    (b.confidence < a.confidence ∨
      (a.confidence == b.confidence) = true ∧ a.signature < b.signature)

lemma ofRow_eq_ok {row : AggregationRow} {rows : List OccurrenceRow} {a : Aggregation} :
    ofRow row rows = .ok a ↔ rows.mapM Occurrence.ofRow = .ok a.occurrences ∧
      readTexts "aggregation languages" row.languages = .ok a.languages ∧
      a = { a with
        signature := row.signature
        category := row.category
        description := row.description
        confidence := row.aggregatedConfidence
        consensus := row.consensusScore
        projectCount := readWord row.occurrenceCount
        revision := readWord row.revision
        createdAt := row.createdAt
        updatedAt := row.updatedAt } := by
  constructor
  · intro h
    obtain ⟨occurrences, hrows, h⟩ := bind_eq_ok.mp h
    obtain ⟨languages, hlanguages, h⟩ := bind_eq_ok.mp h
    obtain rfl := pure_eq_ok.mp h
    exact ⟨hrows, hlanguages, rfl⟩
  · rintro ⟨hrows, hlanguages, ha⟩
    rw [ha, ofRow, hrows, hlanguages]
    rfl

end Aggregation

namespace AggregationFilter

variable {filter more : AggregationFilter} {a : Aggregation}

/-- Whether an aggregation is what a filter asks for. -/
def admits (filter : AggregationFilter) (a : Aggregation) : Bool :=
  filter.category.all (· == a.category) && filter.minProjects.all (· ≤ a.projectCount) &&
    filter.minConsensus.all (· ≤ a.consensus) && filter.language.all (a.languages.contains ·)

/-- A filter that constrains what another one does in the same way, and perhaps more. -/
structure Extends (more filter : AggregationFilter) : Prop where
  category : filter.category = none ∨ more.category = filter.category
  minProjects : filter.minProjects = none ∨ more.minProjects = filter.minProjects
  minConsensus : filter.minConsensus = none ∨ more.minConsensus = filter.minConsensus
  language : filter.language = none ∨ more.language = filter.language

/-- A constraint that is left open or kept holds where it held. -/
lemma all_of_extends {α : Type} {left kept : Option α} {holds : α → Bool}
    (h : left = none ∨ kept = left) (hkept : kept.all holds = true) :
    left.all holds = true := by
  rcases h with rfl | rfl
  · rfl
  · exact hkept

lemma Extends.admits (h : more.Extends filter) (admitted : more.admits a = true) :
    filter.admits a = true := by
  simp only [AggregationFilter.admits, Bool.and_eq_true] at admitted ⊢
  obtain ⟨⟨⟨hcategory, hprojects⟩, hconsensus⟩, hlanguage⟩ := admitted
  exact ⟨⟨⟨all_of_extends h.category hcategory, all_of_extends h.minProjects hprojects⟩,
    all_of_extends h.minConsensus hconsensus⟩, all_of_extends h.language hlanguage⟩

lemma Extends.sublist (h : more.Extends filter) (all : List Aggregation) :
    (all.filter more.admits).Sublist (all.filter filter.admits) :=
  List.monotone_filter_right all fun _ => h.admits

end AggregationFilter

namespace Portfolio

variable {portfolio : Portfolio} {row : AggregationRow} {a : Aggregation}

/-- A row with all its occurrences, by projects and patterns, as it is shown. -/
structure Shows (portfolio : Portfolio) (row : AggregationRow) (a : Aggregation) : Prop where
  known : row ∈ portfolio.aggregations
  whole : ∃ rows, rows.Perm (portfolio.occurrences.filter (·.signature == row.signature)) ∧
    rows.Pairwise OccurrenceRow.Before ∧ Aggregation.ofRow row rows = .ok a
  projects : a.projectCount = (a.occurrences.map (·.projectId)).toFinset.card

/-- All aggregations of a portfolio, in the order that every answer has. -/
structure Lists (portfolio : Portfolio) (all : List Aggregation) : Prop where
  complete : ∃ rows, rows.Perm portfolio.aggregations ∧ List.Forall₂ portfolio.Shows rows all
  ordered : all.Pairwise Aggregation.Before

/-- What a row is read as, and what was written in it. -/
structure Viewed (portfolio : Portfolio) (row : AggregationRow) (a : Aggregation) : Prop
    extends Shows portfolio row a where
  read : Aggregation.ofRow row (portfolio.occurrencesFor row.signature) = .ok a
  languages : row.languages = (Json.ofTexts a.languages).render
  count : row.occurrenceCount = a.projectCount

lemma Consistent.viewed (consistent : portfolio.Consistent) (known : row ∈ portfolio.aggregations) :
    ∃ a, Aggregation.ofRow row (portfolio.occurrencesFor row.signature) = .ok a ∧
      portfolio.Viewed row a := by
  have hfound : portfolio.getAggregation? row.signature = some row :=
    Table.lookup_of_mem AggregationRow.signature consistent.distinct known
  obtain ⟨occurrences, hrows, sums, hlanguages⟩ :=
    (consistent.aggregated row.signature).sums row hfound
  have hcount : row.occurrenceCount = (readWord row.occurrenceCount : Int) := by
    rw [sums.projects, readWord_natCast]
  let a : Aggregation := ⟨row.signature, row.category, row.description, occurrences,
    row.aggregatedConfidence, row.consensusScore, readWord row.occurrenceCount,
    mergedLanguages occurrences, readWord row.revision, row.createdAt, row.updatedAt⟩
  have hread : Aggregation.ofRow row (portfolio.occurrencesFor row.signature) = .ok a := by
    rw [Aggregation.ofRow_eq_ok, hlanguages]
    exact ⟨hrows, readTexts_render _ _, rfl⟩
  refine ⟨a, hread, ⟨known, ⟨_, List.mergeSort_perm _ _,
    consistent.occurrencesFor_ordered row.signature, hread⟩, ?_⟩, hread, hlanguages, hcount⟩
  show readWord row.occurrenceCount = _
  rw [sums.projects, readWord_natCast]

/-! ## What a row is asked -/

/-- A stored list of texts holds a text exactly when it was written with it. -/
lemma hasLanguage_ofTexts (language : String) (texts : List String) :
    hasLanguage language (Json.ofTexts texts).render = .ok (texts.contains language) := by
  obtain ⟨items, hitems, hparse⟩ := LenientJson.parse?_ofTexts texts
  rw [hasLanguage, hparse, Option.bind_some]
  simp only [LenientJson.elements, LenientJson.contains?_texts hitems]

lemma Viewed.projectCount_le (viewed : portfolio.Viewed row a) :
    a.projectCount ≤ portfolio.occurrences.length := by
  obtain ⟨hrows, -⟩ := Aggregation.ofRow_eq_ok.mp viewed.read
  have hlength := (mapM_eq_ok.mp hrows).length_eq
  have hperm := (portfolio.occurrencesFor_perm row.signature).length_eq
  have hfiltered : (portfolio.occurrences.filter (·.signature == row.signature)).length ≤
      portfolio.occurrences.length := List.length_filter_le _ _
  have hcard : (a.occurrences.map (·.projectId)).toFinset.card ≤
      (a.occurrences.map (·.projectId)).length := List.toFinset_card_le _
  rw [List.length_map] at hcard
  rw [viewed.projects]
  omega

/-- A query asks of a row what its filter asks of the aggregation. -/
lemma Viewed.fits (viewed : portfolio.Viewed row a)
    (room : portfolio.occurrences.length < Word.greatest) (filter : AggregationFilter)
    (defaultLimit : Nat) :
    (filter.query defaultLimit).fits row = .ok (filter.admits a) := by
  obtain ⟨-, -, ha⟩ := Aggregation.ofRow_eq_ok.mp viewed.read
  have hcategory : a.category = row.category := congrArg Aggregation.category ha
  have hconsensus : a.consensus = row.consensusScore := congrArg Aggregation.consensus ha
  have hcount := viewed.projectCount_le
  have hprojects : ∀ least : Nat, ((min least Word.greatest : Nat) : Int) ≤ row.occurrenceCount ↔
      least ≤ a.projectCount := by
    intro least
    rw [viewed.count]
    omega
  have hnumbers : (filter.query defaultLimit).fitsNumbers row =
      (filter.category.all (· == a.category) && filter.minProjects.all (· ≤ a.projectCount) &&
        filter.minConsensus.all (· ≤ a.consensus)) := by
    simp only [Query.fitsNumbers, AggregationFilter.query, Option.all_map, hprojects, hcategory,
      hconsensus]
  have hlanguage : (filter.query defaultLimit).language = filter.language := rfl
  rw [Query.fits, hnumbers, AggregationFilter.admits, hlanguage]
  split
  · next hfits =>
    rw [hfits, Bool.true_and]
    cases filter.language with
    | none => rfl
    | some language => exact (viewed.languages ▸ hasLanguage_ofTexts language a.languages)
  · next hfits => rw [Bool.eq_false_iff.mpr hfits, Bool.false_and]

/-- Whether a query keeps a row. -/
def Query.keeps (query : Query) (row : AggregationRow) : Bool := query.fits row matches .ok true

lemma Viewed.keeps (viewed : portfolio.Viewed row a)
    (room : portfolio.occurrences.length < Word.greatest) (filter : AggregationFilter)
    (defaultLimit : Nat) : (filter.query defaultLimit).keeps row = filter.admits a := by
  rw [Query.keeps, viewed.fits room]
  cases filter.admits a <;> rfl

/-- A limit that is cut to a signed word is a limit still, where there are not more rows. -/
lemma take_limit {α : Type} {xs : List α} (room : xs.length ≤ Word.greatest)
    (filter : AggregationFilter) (defaultLimit : Nat) :
    xs.take (filter.query defaultLimit).limit.toNat =
      xs.take (filter.limit.getD defaultLimit) := by
  have hlimit : (filter.query defaultLimit).limit.toNat =
      min (filter.limit.getD defaultLimit) Word.greatest := rfl
  rw [List.take_eq_take_iff, hlimit]
  omega

/-! ## The list of all -/

lemma Viewed.before {row' : AggregationRow} {b : Aggregation} (viewed : portfolio.Viewed row a)
    (viewed' : portfolio.Viewed row' b) (number : row.aggregatedConfidence.isNaN = false)
    (number' : row'.aggregatedConfidence.isNaN = false) (h : seat row < seat row') :
    a.Before b := by
  obtain ⟨-, -, ha⟩ := Aggregation.ofRow_eq_ok.mp viewed.read
  obtain ⟨-, -, hb⟩ := Aggregation.ofRow_eq_ok.mp viewed'.read
  have hsignature : a.signature = row.signature := congrArg Aggregation.signature ha
  have hsignature' : b.signature = row'.signature := congrArg Aggregation.signature hb
  have hconfidence : a.confidence = row.aggregatedConfidence := congrArg Aggregation.confidence ha
  have hconfidence' : b.confidence = row'.aggregatedConfidence :=
    congrArg Aggregation.confidence hb
  rw [seat, seat, Prod.Lex.toLex_lt_toLex, standing, standing, Prod.Lex.toLex_lt_toLex, toLex_inj,
    Prod.mk.injEq] at h
  simp only [neg_lt_neg_iff, neg_inj, viewed.count, viewed'.count, Nat.cast_lt, Nat.cast_inj,
    Binary64.rank_lt_rank number' number, Binary64.rank_eq_rank number number'] at h
  rw [Aggregation.Before, hsignature, hsignature', hconfidence, hconfidence']
  tauto

/-- Rows with different signatures have different seats. -/
lemma pairwise_seats (distinct : portfolio.Distinct) :
    (portfolio.aggregations.mergeSort ranksBefore).Pairwise fun a b => seat a < seat b := by
  have hperm : (portfolio.aggregations.mergeSort ranksBefore).Perm portfolio.aggregations :=
    List.mergeSort_perm _ _
  have hsignatures : ((portfolio.aggregations.mergeSort ranksBefore).map (·.signature)).Nodup :=
    (hperm.map _).nodup_iff.mpr distinct
  rw [List.Nodup, List.pairwise_map] at hsignatures
  refine ((pairwise_ranked portfolio.aggregations).and hsignatures).imp fun h => ?_
  refine lt_of_le_of_ne h.1 fun heq => h.2 ?_
  exact (Prod.mk.inj (toLex_inj.mp heq)).2

/-- An order of rows is one of what is shown of them. -/
lemma pairwise_before {rows : List AggregationRow} {all : List Aggregation}
    (viewed : List.Forall₂ portfolio.Viewed rows all)
    (numbers : ∀ row ∈ rows, row.aggregatedConfidence.isNaN = false)
    (sorted : rows.Pairwise fun a b => seat a < seat b) : all.Pairwise Aggregation.Before := by
  induction viewed with
  | nil => exact .nil
  | cons first others ih =>
    obtain ⟨hnumber, hnumbers⟩ := List.forall_mem_cons.mp numbers
    obtain ⟨hbefore, hsorted⟩ := List.pairwise_cons.mp sorted
    refine List.pairwise_cons.mpr ⟨fun b hb => ?_, ih hnumbers hsorted⟩
    obtain ⟨row, hrow, later⟩ := exists_left others hb
    exact first.before later hnumber (hnumbers row hrow) (hbefore row hrow)

lemma length_aggregations_le (consistent : portfolio.Consistent) :
    portfolio.aggregations.length ≤ portfolio.occurrences.length := by
  have hsubset : portfolio.aggregations.map (·.signature) ⊆
      portfolio.occurrences.map (·.signature) := by
    intro signature hsignature
    obtain ⟨row, hrow, rfl⟩ := List.mem_map.mp hsignature
    obtain ⟨o, ho, hown⟩ := (consistent.agreesOn row.signature).present.mp ⟨row, hrow, rfl⟩
    exact List.mem_map.mpr ⟨o, ho, hown⟩
  have hlength := (List.subperm_of_subset consistent.distinct hsubset).length_le
  simpa using hlength

/-- One list is behind all answers. -/
theorem Consistent.getAggregations_eq (consistent : portfolio.Consistent)
    (room : portfolio.occurrences.length < Word.greatest) :
    ∃ all, portfolio.Lists all ∧ ∀ filter defaultLimit,
      portfolio.getAggregations filter defaultLimit =
        .ok ((all.filter filter.admits).take (filter.limit.getD defaultLimit)) := by
  have hperm : (portfolio.aggregations.mergeSort ranksBefore).Perm portfolio.aggregations :=
    List.mergeSort_perm _ _
  obtain ⟨all, -, viewed⟩ := exists_mapM fun row hrow => consistent.viewed (hperm.mem_iff.mp hrow)
  refine ⟨all, ⟨⟨_, hperm, viewed.imp fun _ _ v => v.toShows⟩, ?_⟩, fun filter defaultLimit => ?_⟩
  · exact pairwise_before viewed
      (fun row hrow => (consistent.proper row (hperm.mem_iff.mp hrow)).number)
      (pairwise_seats consistent.distinct)
  · have hfits : ∀ row ∈ portfolio.aggregations, (filter.query defaultLimit).fits row =
        .ok ((filter.query defaultLimit).keeps row) := by
      intro row hrow
      obtain ⟨a, -, v⟩ := consistent.viewed hrow
      rw [v.keeps room, v.fits room]
    have hlength : ((portfolio.aggregations.mergeSort ranksBefore).filter
        (filter.query defaultLimit).keeps).length ≤ Word.greatest := by
      refine (List.length_filter_le _ _).trans ?_
      rw [hperm.length_eq]
      exact (length_aggregations_le consistent).trans room.le
    rw [getAggregations, query_eq consistent.distinct hfits (Int.natCast_nonneg _),
      take_limit hlength]
    refine mapM_eq_ok.mpr ?_
    refine (List.forall₂_take _ (List.rel_filter ?_ viewed)).imp fun row a v => v.read
    exact fun row a v => Bool.coe_iff_coe.mpr (v.keeps room filter defaultLimit)

/-- Whatever was asked of a portfolio, as long as a signed word can count its occurrences, every
answer is a front of what the filter admits of one list of all aggregations. So a smaller limit
shows a front of what a larger one shows, and a filter that asks for more shows a part, in the same
order, of what can be shown without a limit. -/
theorem run_answers (calls : List PortfolioCall)
    (room : (empty.run calls).occurrences.length < Word.greatest) :
    ∃ all, (empty.run calls).Lists all ∧
      (∀ filter defaultLimit, (empty.run calls).getAggregations filter defaultLimit =
        .ok ((all.filter filter.admits).take (filter.limit.getD defaultLimit))) ∧
      (∀ (filter : AggregationFilter) (defaultLimit less more : Nat), less ≤ more → ∃ few many,
        (empty.run calls).getAggregations { filter with limit := some less } defaultLimit =
            .ok few ∧
          (empty.run calls).getAggregations { filter with limit := some more } defaultLimit =
            .ok many ∧
          few <+: many) ∧
      ∀ (filter more : AggregationFilter) (defaultLimit : Nat), more.Extends filter →
        ∃ few many, (empty.run calls).getAggregations more defaultLimit = .ok few ∧
          (∀ limit ≥ all.length, (empty.run calls).getAggregations
            { filter with limit := some limit } defaultLimit = .ok many) ∧
          few.Sublist many := by
  obtain ⟨all, lists, answers⟩ := (consistent_empty.run calls).getAggregations_eq room
  refine ⟨all, lists, answers, ?_, ?_⟩
  · intro filter defaultLimit less more hle
    exact ⟨_, _, answers _ _, answers _ _, List.take_prefix_take_left hle⟩
  · intro filter more defaultLimit extending
    refine ⟨_, all.filter filter.admits, answers _ _, fun limit hlimit => ?_,
      (List.take_sublist _ _).trans (extending.sublist all)⟩
    rw [answers]
    exact congrArg Except.ok
      (List.take_of_length_le ((List.length_filter_le _ _).trans hlimit))

/-! A project that quotes in Python, and what is shown of it by language. -/

def sampleShared : List PortfolioCall :=
  [.link "a" "/a" .unset, .sync "a" ((Workspace.empty.run Workspace.sampleCalls).stores "a")].map
    fun request => ⟨request, 3, 0, .none, Faults.honest_none⟩

def sampleFilter (language : String) : AggregationFilter :=
  ⟨none, some 1, none, some language, none⟩

/-- The signatures that are shown for a language. -/
def sampleAnswer (language : String) : Option (List String) :=
  ((empty.run sampleShared).getAggregations (sampleFilter language) 10).toOption.map
    (·.map (·.signature))

lemma sampleAnswer_python : sampleAnswer "python" = some ["style:quotes:single"] := by
  decide +kernel

lemma sampleAnswer_rust : sampleAnswer "rust" = some [] := by
  decide +kernel

theorem sampleShared_answers :
    (empty.run sampleShared).occurrences.length < Word.greatest ∧
      ∃ all, (empty.run sampleShared).Lists all ∧
        ((all.filter (sampleFilter "python").admits).take 10).map (·.signature) =
          ["style:quotes:single"] ∧
        (all.filter (sampleFilter "rust").admits).take 10 = [] := by
  have room : (empty.run sampleShared).occurrences.length < Word.greatest := by decide +kernel
  obtain ⟨all, lists, answers, -, -⟩ := run_answers sampleShared room
  have hpython := sampleAnswer_python
  have hrust := sampleAnswer_rust
  rw [sampleAnswer, answers] at hpython hrust
  exact ⟨room, all, lists, Option.some.inj hpython, List.map_eq_nil_iff.mp (Option.some.inj hrust)⟩

end Portfolio

end HouseStyle
