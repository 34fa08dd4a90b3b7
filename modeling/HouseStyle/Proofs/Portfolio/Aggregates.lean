import HouseStyle.Proofs.Pattern.Confidence
import HouseStyle.Proofs.Pattern.Form
import HouseStyle.Proofs.Portfolio.Mirror
import HouseStyle.Proofs.Portfolio.Writes
import HouseStyle.Proofs.Store.Evidence
import HouseStyle.Proofs.Text.Sorted
import Mathlib.Data.Finset.Card

/-!
# What an aggregation says

An aggregation is the sum of the occurrences of its signature. A refresh makes it so for its
own signature, whatever the row said before, and touches no other. A consensus that is brought
up to date leaves the rest of what its row says as it is.
-/

namespace HouseStyle

/-! ## Scores -/

open Binary64

/-- A zero is below the tolerance, whatever its sign. -/
lemma abs_lt_tolerance {x : Float} (h : ∃ sign, x.toModel.unpack = .zero sign) :
    x.abs < consensusTolerance := by
  obtain ⟨sign, hzero⟩ := h
  rw [lt_iff]
  change ((Float.Model.pack x.toModel.unpack.abs).unpack).lt _ = true
  rw [hzero]
  cases sign <;> decide

/-- A score counts as the same as the one that is stored for it. -/
lemma sameConsensus_unsignedZero {x : Float} (h : x.isFinite = true) :
    sameConsensus x (Decimal.unsignedZero x) = true := by
  unfold sameConsensus Decimal.unsignedZero
  apply decide_eq_true
  apply abs_lt_tolerance
  split
  · next hzero => exact unpack_sub_zero hzero
  · exact unpack_sub_self h

lemma isNaN_unsignedZero {x : Float} (h : x.isNaN = false) :
    (Decimal.unsignedZero x).isNaN = false := by
  unfold Decimal.unsignedZero
  split
  · decide
  · exact h

lemma isFinite_consensus {exhibiting active : Nat}
    (h : (consensus exhibiting active).isNaN = false) :
    (consensus exhibiting active).isFinite = true := by
  unfold consensus at h ⊢
  split
  · decide
  · next hactive =>
    rw [if_neg hactive] at h
    exact isFinite_clampUnit h

/-! ## The row of a signature -/

/-- What an aggregation says of the occurrences of its signature. A confidence of zero is stored
without its sign. -/
structure AggregationRow.Sums (row : AggregationRow) (occurrences : List Occurrence) : Prop where
  confidence : row.aggregatedConfidence = Decimal.unsignedZero (weightedConfidence occurrences)
  projects : row.occurrenceCount = (occurrences.map (·.projectId)).toFinset.card
  languages : ∃ languages, readTexts "aggregation languages" row.languages = .ok languages ∧
    languages.Pairwise (· < ·) ∧ ∀ x, x ∈ languages ↔ ∃ o ∈ occurrences, x ∈ o.languages

lemma length_eraseDups (xs : List String) : xs.eraseDups.length = xs.toFinset.card := by
  rw [← List.toFinset_card_of_nodup (nodup_eraseDups xs)]
  congr 1
  ext x
  rw [List.mem_toFinset, List.mem_toFinset, List.mem_eraseDups]

/-- What a row says whatever its occurrences are: its category is that of a content with its
signature, its confidence is a number, and its consensus is the share that some projects once were
of the active ones. -/
structure AggregationRow.Proper (row : AggregationRow) (projects : Nat) : Prop where
  category : ∃ content : PatternContent, content.signature = row.signature ∧
    row.category = content.category.name
  number : row.aggregatedConfidence.isNaN = false
  share : ∃ exhibiting active, exhibiting ≤ active ∧ active ≤ projects ∧
    row.consensusScore = Decimal.unsignedZero (consensus exhibiting active)

lemma AggregationRow.Proper.mono {row : AggregationRow} {projects more : Nat}
    (proper : row.Proper projects) (h : projects ≤ more) : row.Proper more := by
  obtain ⟨category, number, exhibiting, active, hexhibiting, hactive, hscore⟩ := proper
  exact ⟨category, number, exhibiting, active, hexhibiting, Nat.le_trans hactive h, hscore⟩

namespace Portfolio

variable {portfolio after : Portfolio} {signature : String} {now : Int}

/-- The row that is made of occurrences sums them up. -/
lemma aggregate_sums (portfolio : Portfolio) (signature : String) (told : RuleText)
    (occurrences : List Occurrence) (createdAt now : Int) :
    (storedAggregation (portfolio.aggregate signature told occurrences createdAt now)).Sums
      occurrences where
  confidence := rfl
  projects := congrArg Nat.cast (length_eraseDups _)
  languages := by
    refine ⟨mergedLanguages occurrences, readTexts_render _ _, pairwise_sortedTexts _, ?_⟩
    intro x
    rw [mergedLanguages, mem_sortedTexts, List.mem_flatMap]

/-- There is a row where there are occurrences, and it sums them up. -/
structure Told (portfolio : Portfolio) (signature : String) : Prop where
  present : (portfolio.getAggregation? signature).isSome = true ↔
    portfolio.occurrencesFor signature ≠ []
  sums : ∀ row, portfolio.getAggregation? signature = some row →
    ∃ occurrences, (portfolio.occurrencesFor signature).mapM Occurrence.ofRow = .ok occurrences ∧
      row.Sums occurrences ∧
      row.languages = (Json.ofTexts (mergedLanguages occurrences)).render

/-- The consensus of a row is that of the projects, up to the tolerance. -/
def Scored (portfolio : Portfolio) (signature : String) : Prop :=
  ∀ row, portfolio.getAggregation? signature = some row →
    sameConsensus (portfolio.scoreFor signature) row.consensusScore = true

lemma Scored.congr (scored : portfolio.Scored signature)
    (hrow : after.getAggregation? signature = portfolio.getAggregation? signature)
    (hscore : after.scoreFor signature = portfolio.scoreFor signature) :
    after.Scored signature := by
  intro row h
  rw [hscore]
  exact scored row (hrow ▸ h)

/-- A row that says what it should. -/
structure Aggregated (portfolio : Portfolio) (signature : String) : Prop
    extends Told portfolio signature where
  scored : portfolio.Scored signature

/-- What is known of a signature depends only on its row and its occurrences. -/
lemma Told.congr (told : portfolio.Told signature)
    (hrow : after.getAggregation? signature = portfolio.getAggregation? signature)
    (hrows : after.occurrencesFor signature = portfolio.occurrencesFor signature) :
    after.Told signature where
  present := by
    rw [hrow, hrows]
    exact told.present
  sums := by
    rw [hrow, hrows]
    exact told.sums

lemma Aggregated.congr (aggregated : portfolio.Aggregated signature)
    (hrow : after.getAggregation? signature = portfolio.getAggregation? signature)
    (hrows : after.occurrencesFor signature = portfolio.occurrencesFor signature)
    (hscore : after.scoreFor signature = portfolio.scoreFor signature) :
    after.Aggregated signature where
  toTold := aggregated.toTold.congr hrow hrows
  scored := aggregated.scored.congr hrow hscore

/-- Without occurrences there is nothing to say. -/
lemma Aggregated.of_none (unknown : portfolio.getAggregation? signature = none)
    (nothing : portfolio.occurrencesFor signature = []) : portfolio.Aggregated signature where
  present := by simp [unknown, nothing]
  sums := by simp [unknown]
  scored := by simp [Scored, unknown]

lemma Aggregated.of_row (row : AggregationRow) {occurrences : List Occurrence}
    (hrow : portfolio.getAggregation? signature = some row)
    (something : portfolio.occurrencesFor signature ≠ [])
    (read : (portfolio.occurrencesFor signature).mapM Occurrence.ofRow = .ok occurrences)
    (sums : row.Sums occurrences)
    (languages : row.languages = (Json.ofTexts (mergedLanguages occurrences)).render)
    (hscore : sameConsensus (portfolio.scoreFor signature) row.consensusScore = true) :
    portfolio.Aggregated signature where
  present := by
    rw [hrow]
    exact ⟨fun _ => something, fun _ => rfl⟩
  sums := by
    intro row' h
    obtain rfl : row = row' := Option.some.inj (hrow.symm.trans h)
    exact ⟨occurrences, read, sums, languages⟩
  scored := by
    intro row' h
    obtain rfl : row = row' := Option.some.inj (hrow.symm.trans h)
    exact hscore

/-! ## Rows by their signatures -/

/-- Signatures are all different. -/
def Distinct (portfolio : Portfolio) : Prop :=
  (portfolio.aggregations.map (·.signature)).Nodup

lemma getAggregation?_withAggregation {row : AggregationRow} (own : row.signature = signature)
    (k : String) : (portfolio.withAggregation signature row).getAggregation? k =
      (portfolio.getAggregation? k).map fun old => if k = signature then row else old :=
  Table.lookup_changed AggregationRow.signature (fun _ _ => own) _ _

lemma Distinct.withAggregation (distinct : portfolio.Distinct) {row : AggregationRow}
    (own : row.signature = signature) : (portfolio.withAggregation signature row).Distinct := by
  unfold Distinct Portfolio.withAggregation
  rw [Table.map_key_changed AggregationRow.signature fun _ _ => own]
  exact distinct

lemma getAggregation?_append {row : AggregationRow}
    (unknown : portfolio.getAggregation? row.signature = none) (k : String) :
    ({ portfolio with aggregations := portfolio.aggregations ++ [row] } :
      Portfolio).getAggregation? k =
        if k = row.signature then some row else portfolio.getAggregation? k := by
  unfold getAggregation? at unknown ⊢
  rw [List.find?_append]
  by_cases hk : k = row.signature
  · subst hk
    rw [unknown]
    simp
  · simp [hk, Ne.symm hk]

lemma Distinct.append (distinct : portfolio.Distinct) {row : AggregationRow}
    (unknown : portfolio.getAggregation? row.signature = none) :
    ({ portfolio with aggregations := portfolio.aggregations ++ [row] } : Portfolio).Distinct :=
  Table.nodup_concat distinct ((Table.lookup_eq_none AggregationRow.signature).mp unknown)

/-- The row of a signature is deleted with its revision. -/
lemma filter_revision (distinct : portfolio.Distinct) {current : AggregationRow}
    (known : portfolio.getAggregation? signature = some current) :
    (portfolio.aggregations.filter fun row =>
      !(row.signature == signature && row.revision == current.revision)) =
        portfolio.aggregations.filter fun row => !(row.signature == signature) := by
  apply List.filter_congr
  intro row hrow
  by_cases hown : row.signature = signature
  · have hfound : portfolio.getAggregation? row.signature = some row :=
      Table.lookup_of_mem AggregationRow.signature distinct hrow
    rw [hown] at hfound
    obtain rfl : current = row := Option.some.inj (known.symm.trans hfound)
    simp
  · simp [hown]

/-! ## A refresh -/

/-- A refresh leaves the signatures different, and all rows but one as they were. -/
structure Apart (portfolio after : Portfolio) (signature : String) : Prop where
  refreshed : portfolio.Refreshed after
  distinct : after.Distinct
  others : ∀ k ≠ signature, after.getAggregation? k = portfolio.getAggregation? k

namespace Renewed

variable {text : Option RuleText}

lemma apart (renewed : portfolio.Renewed signature text now after)
    (distinct : portfolio.Distinct) : portfolio.Apart after signature := by
  refine ⟨renewed.refreshed, ?_, ?_⟩
  · cases renewed with
    | absent => exact distinct
    | deleted => exact Table.nodup_filter AggregationRow.signature _ _ distinct
    | updated => exact distinct.withAggregation rfl
    | inserted _ _ _ _ unknown => exact distinct.append unknown
    | untold => exact distinct
  · intro k hk
    cases renewed with
    | absent => rfl
    | deleted current _ known =>
      refine (congrArg (Table.lookup AggregationRow.signature · k)
        (filter_revision distinct known)).trans ?_
      rw [Table.lookup_filter_ne, if_neg hk]
      rfl
    | updated =>
      rw [getAggregation?_withAggregation (by rfl)]
      simp [hk]
    | inserted _ _ _ _ unknown =>
      rw [getAggregation?_append unknown]
      exact if_neg hk
    | untold => rfl

/-- A refresh makes the row of its signature say what it should, if there is a row or something
is known to make one from. -/
theorem aggregated (renewed : portfolio.Renewed signature text now after)
    (distinct : portfolio.Distinct)
    (known : text = none → portfolio.occurrencesFor signature ≠ [] →
      (portfolio.getAggregation? signature).isSome = true) :
    after.Aggregated signature := by
  cases renewed with
  | absent nothing unknown => exact .of_none unknown nothing
  | deleted current nothing known =>
    refine .of_none ?_ nothing
    refine (congrArg (Table.lookup AggregationRow.signature · signature)
      (filter_revision distinct known)).trans ?_
    rw [Table.lookup_filter_ne, if_pos rfl]
  | updated current old occurrences description createdAt revision something known _ _ read
      number =>
    have sums := portfolio.aggregate_sums signature ⟨old.category, description⟩ occurrences
      createdAt now
    refine .of_row (storedAggregation { portfolio.aggregate signature ⟨old.category, description⟩
      occurrences createdAt now with revision }) ?_ something read
      ⟨sums.confidence, sums.projects, sums.languages⟩ rfl
      (sameConsensus_unsignedZero (isFinite_consensus number))
    rw [getAggregation?_withAggregation (by rfl), known]
    simp
  | inserted occurrences told given something unknown read number =>
    refine .of_row _ ?_ something read
      (portfolio.aggregate_sums signature told occurrences now now) rfl
      (sameConsensus_unsignedZero (isFinite_consensus number))
    rw [getAggregation?_append unknown]
    exact if_pos rfl
  | untold something unknown nothingTold =>
    have hsome := known nothingTold something
    rw [unknown] at hsome
    cases hsome

end Renewed

/-! ## What every row says -/

/-- The consensus of a portfolio is the share of some active projects. -/
lemma scoreFor_share (portfolio : Portfolio) (signature : String) :
    ∃ exhibiting active, exhibiting ≤ active ∧ active ≤ portfolio.projects.length ∧
      Decimal.unsignedZero (portfolio.scoreFor signature) =
        Decimal.unsignedZero (consensus exhibiting active) := by
  refine ⟨_, _, ?_, List.countP_le_length, rfl⟩
  refine List.countP_mono_left fun project _ h => ?_
  exact (Bool.and_eq_true_iff.mp h).1

/-- Every row says something proper. -/
def Proper (portfolio : Portfolio) : Prop :=
  ∀ row ∈ portfolio.aggregations, row.Proper portfolio.projects.length

lemma Proper.grown (proper : portfolio.Proper) {projects : List ProjectRow}
    (h : portfolio.projects.length ≤ projects.length) :
    ({ portfolio with projects } : Portfolio).Proper :=
  fun row hrow => (proper row hrow).mono h

lemma Proper.withAggregation (proper : portfolio.Proper) {row : AggregationRow}
    (own : row.Proper portfolio.projects.length) :
    (portfolio.withAggregation signature row).Proper := by
  intro row' hrow
  obtain ⟨old, hold, rfl⟩ := List.mem_map.mp hrow
  split
  · exact own
  · exact proper old hold

/-- A refresh keeps all rows proper, if it is told a proper category. -/
lemma Renewed.proper {text : Option RuleText} (renewed : portfolio.Renewed signature text now after)
    (named : Named [(signature, text)]) (proper : portfolio.Proper) : after.Proper := by
  cases renewed with
  | absent => exact proper
  | deleted => exact fun row hrow => proper row (List.mem_filter.mp hrow).1
  | updated current old occurrences description createdAt revision something known replaced own
      read number sure =>
    obtain ⟨content, hcontent, hcategory⟩ := (proper old replaced).category
    exact proper.withAggregation ⟨⟨content, hcontent.trans own, hcategory⟩,
      isNaN_unsignedZero sure, portfolio.scoreFor_share signature⟩
  | inserted occurrences told given something unknown read number sure =>
    obtain ⟨content, hcontent, hcategory⟩ := named _ (List.mem_singleton.mpr rfl) told given
    intro row hrow
    rcases List.mem_append.mp hrow with hold | hnew
    · exact proper row hold
    · obtain rfl := List.mem_singleton.mp hnew
      exact ⟨⟨content, hcontent, hcategory⟩, isNaN_unsignedZero sure,
        portfolio.scoreFor_share signature⟩
  | untold => exact proper

lemma RenewedAll.proper {renewals : List (String × Option RuleText)}
    (renewed : RenewedAll now renewals portfolio after) (named : Named renewals)
    (proper : portfolio.Proper) : after.Proper := by
  induction renewed with
  | nil => exact proper
  | cons first _ ih =>
    obtain ⟨hfirst, hothers⟩ := List.forall_mem_cons.mp named
    exact ih hothers (first.proper (List.forall_mem_singleton.mpr hfirst) proper)

/-! ## Every consensus -/

lemma Refreshed.occurrencesFor (refreshed : portfolio.Refreshed after) (k : String) :
    after.occurrencesFor k = portfolio.occurrencesFor k := by
  obtain ⟨_, rfl⟩ := refreshed
  rfl

lemma Refreshed.scoreFor (refreshed : portfolio.Refreshed after) (k : String) :
    after.scoreFor k = portfolio.scoreFor k := by
  obtain ⟨_, rfl⟩ := refreshed
  rfl

namespace Rescored

variable {score wanted : Float}

lemma apart (rescored : portfolio.Rescored signature score wanted now after)
    (distinct : portfolio.Distinct) : portfolio.Apart after signature := by
  refine ⟨rescored.refreshed, ?_, ?_⟩
  · cases rescored with
    | kept => exact distinct
    | written old revision known own => exact distinct.withAggregation own
  · intro k hk
    cases rescored with
    | kept => rfl
    | written old revision known own =>
      rw [getAggregation?_withAggregation (by exact own)]
      simp [hk]

/-- The row that is written, in place of the one there was. -/
lemma own_row (row : AggregationRow) (distinct : portfolio.Distinct) {old : AggregationRow}
    (known : old ∈ portfolio.aggregations) (own : old.signature = signature)
    (howned : row.signature = signature) :
    portfolio.getAggregation? signature = some old ∧
      (portfolio.withAggregation signature row).getAggregation? signature = some row := by
  have hold : portfolio.getAggregation? signature = some old := by
    rw [← own]
    exact Table.lookup_of_mem AggregationRow.signature distinct known
  refine ⟨hold, ?_⟩
  rw [getAggregation?_withAggregation howned, hold, Option.map_some, if_pos rfl]

/-- All that a row says besides the consensus stays as it was. -/
lemma told (rescored : portfolio.Rescored signature score wanted now after)
    (distinct : portfolio.Distinct) {k : String} (told : portfolio.Told k) : after.Told k := by
  by_cases hk : k = signature
  · subst hk
    cases rescored with
    | kept => exact told
    | written old revision known own number =>
      obtain ⟨hold, hnew⟩ := own_row (storedAggregation
        { old with consensusScore := wanted, updatedAt := now, revision }) distinct known own own
      obtain ⟨occurrences, read, sums, languages⟩ := told.sums old hold
      have hsigned : Decimal.unsignedZero old.aggregatedConfidence =
          Decimal.unsignedZero (weightedConfidence occurrences) := by
        rw [sums.confidence, Decimal.unsignedZero_idem]
      refine ⟨?_, ?_⟩
      · rw [hnew]
        have hpresent := told.present
        rw [hold] at hpresent
        exact hpresent
      · intro row hrow
        obtain rfl := Option.some.inj (hnew.symm.trans hrow)
        exact ⟨occurrences, read, ⟨hsigned, sums.projects, sums.languages⟩, languages⟩
  · exact told.congr ((rescored.apart distinct).others k hk)
      (rescored.refreshed.occurrencesFor k)

lemma proper {k : String}
    (rescored : portfolio.Rescored signature score (portfolio.scoreFor k) now after)
    (proper : portfolio.Proper) : after.Proper := by
  cases rescored with
  | kept => exact proper
  | written old revision known own =>
    exact proper.withAggregation ⟨(proper old known).category,
      isNaN_unsignedZero (proper old known).number, portfolio.scoreFor_share k⟩

lemma scored {row : AggregationRow}
    (rescored : portfolio.Rescored signature row.consensusScore (portfolio.scoreFor signature) now
      after)
    (distinct : portfolio.Distinct) (hrow : portfolio.getAggregation? signature = some row) :
    after.Scored signature := by
  intro row' hrow'
  cases rescored with
  | kept same =>
    obtain rfl : row = row' := Option.some.inj (hrow.symm.trans hrow')
    exact same row hrow rfl
  | written old revision known own number =>
    obtain ⟨-, hnew⟩ := own_row (storedAggregation
      { old with consensusScore := portfolio.scoreFor signature, updatedAt := now, revision })
      distinct known own own
    obtain rfl := Option.some.inj (hnew.symm.trans hrow')
    exact sameConsensus_unsignedZero (isFinite_consensus number)

end Rescored

/-- The rows of some signatures have been given the consensus that they should have. -/
structure Recomputed (portfolio after : Portfolio) (signatures : List String) : Prop where
  refreshed : portfolio.Refreshed after
  distinct : after.Distinct
  told : ∀ k, portfolio.Told k → after.Told k
  proper : portfolio.Proper → after.Proper
  scored : ∀ k ∈ signatures, after.Scored k
  others : ∀ k, k ∉ signatures → after.getAggregation? k = portfolio.getAggregation? k

lemma recomputeRows_ok {attempts count : Nat} {rows : List AggregationRow}
    (distinct : portfolio.Distinct)
    (known : ∀ row ∈ rows, portfolio.getAggregation? row.signature = some row)
    (nodup : (rows.map (·.signature)).Nodup)
    (h : recomputeRows portfolio.countActive attempts now rows portfolio = (.ok count, after)) :
    portfolio.Recomputed after (rows.map (·.signature)) := by
  induction rows generalizing portfolio count with
  | nil =>
    obtain ⟨-, rfl⟩ := Prod.mk.inj h
    exact ⟨.refl _, distinct, fun _ told => told, fun proper => proper, by simp, fun _ _ => rfl⟩
  | cons row rows ih =>
    obtain ⟨hfresh, nodup⟩ := List.nodup_cons.mp nodup
    unfold recomputeRows at h
    cases hfirst : recomputeFrom row.signature portfolio.countActive now row.consensusScore
        row.revision 0 (max attempts 1 - 1) portfolio with
    | error error =>
      rw [hfirst] at h
      cases h
    | ok result =>
      obtain ⟨mid, wrote⟩ := result
      rw [hfirst] at h
      have rescored : portfolio.Rescored row.signature row.consensusScore
        (portfolio.scoreFor row.signature) now mid := recomputeFrom_ok hfirst
      have apart := rescored.apart distinct
      have hactive : mid.countActive = portfolio.countActive := by
        obtain ⟨_, rfl⟩ := rescored.refreshed
        rfl
      simp only at h
      rw [← hactive] at h
      generalize hrest : recomputeRows mid.countActive attempts now rows mid = outcome at h
      obtain ⟨result, left⟩ := outcome
      obtain ⟨hresult, rfl⟩ := Prod.mk.inj h
      cases result with
      | error error => cases hresult
      | ok rest =>
        have hknown : ∀ later ∈ rows, mid.getAggregation? later.signature = some later := by
          intro later hlater
          have hne : later.signature ≠ row.signature :=
            fun heq => hfresh (List.mem_map.mpr ⟨later, hlater, heq⟩)
          rw [apart.others _ hne]
          exact known later (List.mem_cons_of_mem _ hlater)
        have later := ih apart.distinct hknown nodup hrest
        have hrow : left.getAggregation? row.signature = mid.getAggregation? row.signature :=
          later.others _ hfresh
        have hscored : mid.Scored row.signature :=
          rescored.scored distinct (known row List.mem_cons_self)
        refine ⟨apart.refreshed.trans later.refreshed, later.distinct,
          fun k told => later.told k (rescored.told distinct told),
          fun proper => later.proper (rescored.proper proper), ?_, ?_⟩
        · intro k hk
          rcases List.mem_cons.mp hk with rfl | hk
          · exact hscored.congr hrow (later.refreshed.scoreFor _)
          · exact later.scored k hk
        · intro k hk
          obtain ⟨hne, hk⟩ := List.ne_and_not_mem_of_not_mem_cons hk
          exact (later.others k hk).trans (apart.others k hne)

/-- Bringing every consensus up to date makes all rows say what they should that said it but
for the consensus. -/
theorem recompute_aggregated {attempts changed : Nat} (distinct : portfolio.Distinct)
    (h : portfolio.recompute attempts now = .ok (after, changed)) :
    portfolio.Refreshed after ∧ after.Distinct ∧ (portfolio.Proper → after.Proper) ∧
      ∀ k, portfolio.Told k → after.Aggregated k := by
  have hperm : portfolio.snapshot.Perm portfolio.aggregations := List.mergeSort_perm _ _
  have hknown : ∀ row ∈ portfolio.snapshot, portfolio.getAggregation? row.signature = some row :=
    fun row hrow =>
      Table.lookup_of_mem AggregationRow.signature distinct (hperm.mem_iff.mp hrow)
  unfold recompute recomputeEach at h
  generalize hrows : recomputeRows portfolio.countActive attempts now portfolio.snapshot
    portfolio = outcome at h
  obtain ⟨result, left⟩ := outcome
  cases result with
  | error error => cases h
  | ok count =>
    obtain ⟨rfl, -⟩ := Prod.mk.inj (Except.ok.inj h)
    have recomputed :=
      recomputeRows_ok distinct hknown ((hperm.map _).nodup_iff.mpr distinct) hrows
    refine ⟨recomputed.refreshed, recomputed.distinct, recomputed.proper,
      fun k told => ⟨recomputed.told k told, ?_⟩⟩
    by_cases hk : k ∈ portfolio.snapshot.map (·.signature)
    · exact recomputed.scored k hk
    · -- a signature without a row has none afterwards
      have hnone : left.getAggregation? k = none := by
        rw [recomputed.others k hk]
        apply (Table.lookup_eq_none AggregationRow.signature).mpr
        intro row hrow heq
        exact hk (List.mem_map.mpr ⟨row, hperm.mem_iff.mpr hrow, heq⟩)
      intro row hrow
      rw [hnone] at hrow
      cases hrow

end Portfolio

end HouseStyle
