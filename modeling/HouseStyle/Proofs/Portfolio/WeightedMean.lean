import HouseStyle.Portfolio.Occurrence
import Mathlib.Algebra.BigOperators.Ring.Finset
import Mathlib.Algebra.BigOperators.Ring.List
import Mathlib.Algebra.Order.BigOperators.Group.List
import Mathlib.Algebra.Order.Field.Basic
import Mathlib.Algebra.Order.Field.Rat
import Mathlib.Data.Set.Finite.Lemmas
import Mathlib.Tactic.NormNum
import Mathlib.Tactic.Ring

/-!
# The weighted confidence without rounding

The confidence in a rule is a weighted mean, computed with floats. Over an ordered field the same
function is a mean: the occurrences that count have shares that are not negative and add up to a
positive number, so the result lies between the smallest and the largest of their confidences, and
cutting it off at 0 and 1 changes nothing. Only sums go into it, so that neither the order of the
occurrences matters nor how the weight of a confidence is divided among them.
-/

namespace HouseStyle

/-- An occurrence counts when it has weight, and all of them do when none has. -/
structure Occurrence.Counts (occurrences : List Occurrence) (o : Occurrence) : Prop where
  mem : o ∈ occurrences
  weighs : 0 < o.frequency ∨ ∀ other ∈ occurrences, other.frequency = 0

open Occurrence (Counts)

variable {occurrences others : List Occurrence} {o : Occurrence}

lemma exists_counts (hne : occurrences ≠ []) : ∃ o, Counts occurrences o := by
  by_cases none : ∀ other ∈ occurrences, other.frequency = 0
  · exact ⟨occurrences.head hne, List.head_mem hne, .inr none⟩
  · push Not at none
    obtain ⟨o, mem, hzero⟩ := none
    exact ⟨o, mem, .inl (Nat.pos_of_ne_zero hzero)⟩

section WeightedMean

variable {K : Type} [Field K]

/-! ## Shares -/

/-- With what weight an occurrence goes into the mean. -/
def share (occurrences : List Occurrence) (o : Occurrence) : K :=
  if ∀ other ∈ occurrences, other.frequency = 0 then 1 else o.frequency

lemma share_of_none (none : ∀ other ∈ occurrences, other.frequency = 0) :
    share occurrences = fun _ => (1 : K) := by
  funext o
  exact if_pos none

lemma share_of_some (some : ¬ ∀ other ∈ occurrences, other.frequency = 0) :
    share occurrences = fun o => (o.frequency : K) := by
  funext o
  exact if_neg some

/-- What has a share counts. -/
lemma counts_of_share (mem : o ∈ occurrences) (h : (share occurrences o : K) ≠ 0) :
    Counts occurrences o := by
  refine ⟨mem, ?_⟩
  by_cases none : ∀ other ∈ occurrences, other.frequency = 0
  · exact .inr none
  · rw [share_of_some none] at h
    exact .inl (Nat.pos_of_ne_zero fun hzero => h (by simp [hzero]))

lemma share_perm (perm : others.Perm occurrences) :
    (share others : Occurrence → K) = share occurrences := by
  funext o
  simp only [share, perm.mem_iff]

lemma total_eq_sum (xs : List K) : total xs = xs.sum := List.sum_eq_foldl.symm

variable [LinearOrder K] [IsStrictOrderedRing K]

lemma share_nonneg (occurrences : List Occurrence) (o : Occurrence) :
    (0 : K) ≤ share occurrences o := by
  by_cases none : ∀ other ∈ occurrences, other.frequency = 0
  · simp [share_of_none none]
  · simp [share_of_some none]

lemma sum_frequencies_pos : 0 < (occurrences.map fun o => (o.frequency : K)).sum ↔
    ¬ ∀ o ∈ occurrences, o.frequency = 0 := by
  have hcast : (occurrences.map fun o => (o.frequency : K)).sum =
      ((occurrences.map (·.frequency)).sum : Nat) := by
    simp [Nat.cast_list_sum, Function.comp_def]
  rw [hcast, Nat.cast_pos, List.sum_pos_iff_exists_pos_nat]
  simp [Nat.pos_iff_ne_zero]

lemma sum_shares_pos (hne : occurrences ≠ []) :
    (0 : K) < (occurrences.map (share occurrences)).sum := by
  by_cases none : ∀ other ∈ occurrences, other.frequency = 0
  · simpa [share_of_none none] using List.length_pos_iff.mpr hne
  · simpa only [share_of_some none] using sum_frequencies_pos.mpr none

/-! ## The mean -/

/-- The weighted confidence in exact arithmetic, where `exact` reads a confidence as a number. -/
def exactConfidence (exact : Float → K) (occurrences : List Occurrence) : K :=
  weightedMean (fun n => (n : K)) (occurrences.map fun o => (o.frequency, exact o.confidence))

/-- The confidences by their shares, added up and divided by all shares. -/
def shareMean (exact : Float → K) (occurrences : List Occurrence) : K :=
  (occurrences.map fun o => share occurrences o * exact o.confidence).sum /
    (occurrences.map (share occurrences)).sum

variable {exact : Float → K}

lemma exactConfidence_eq (hne : occurrences ≠ []) :
    exactConfidence exact occurrences = clampUnit (shareMean exact occurrences) := by
  by_cases none : ∀ other ∈ occurrences, other.frequency = 0
  · have hweight : ¬ 0 < (occurrences.map fun o => (o.frequency : K)).sum :=
      fun h => sum_frequencies_pos.mp h none
    simp [exactConfidence, weightedMean, shareMean, total_eq_sum, hne, hweight, Function.comp_def,
      share_of_none none]
  · have hweight : 0 < (occurrences.map fun o => (o.frequency : K)).sum :=
      sum_frequencies_pos.mpr none
    simp [exactConfidence, weightedMean, shareMean, total_eq_sum, hne, hweight, Function.comp_def,
      share_of_some none]

/-- The mean lies wherever all confidences lie that count. -/
lemma shareMean_between {lo hi : K} (hne : occurrences ≠ [])
    (h : ∀ o, Counts occurrences o → lo ≤ exact o.confidence ∧ exact o.confidence ≤ hi) :
    lo ≤ shareMean exact occurrences ∧ shareMean exact occurrences ≤ hi := by
  have hpos : (0 : K) < (occurrences.map (share occurrences)).sum := sum_shares_pos hne
  have hterm : ∀ o ∈ occurrences,
      lo * share occurrences o ≤ share occurrences o * exact o.confidence ∧
        share occurrences o * exact o.confidence ≤ hi * share occurrences o := by
    intro o mem
    by_cases hzero : (share occurrences o : K) = 0
    · simp [hzero]
    · obtain ⟨low, high⟩ := h o (counts_of_share mem hzero)
      have hshare : (0 : K) ≤ share occurrences o := share_nonneg occurrences o
      rw [mul_comm _ (exact o.confidence)]
      exact ⟨mul_le_mul_of_nonneg_right low hshare, mul_le_mul_of_nonneg_right high hshare⟩
  rw [shareMean, le_div_iff₀ hpos, div_le_iff₀ hpos, ← List.sum_map_mul_left,
    ← List.sum_map_mul_left]
  exact ⟨List.sum_le_sum fun o mem => (hterm o mem).1,
    List.sum_le_sum fun o mem => (hterm o mem).2⟩

/-- Confidences from 0 to 1 have a mean that needs no cut. -/
lemma exactConfidence_between {lo hi : K} (hne : occurrences ≠ [])
    (unit : ∀ o ∈ occurrences, 0 ≤ exact o.confidence ∧ exact o.confidence ≤ 1)
    (h : ∀ o, Counts occurrences o → lo ≤ exact o.confidence ∧ exact o.confidence ≤ hi) :
    lo ≤ exactConfidence exact occurrences ∧ exactConfidence exact occurrences ≤ hi := by
  obtain ⟨low, high⟩ := shareMean_between hne fun o counts => unit o counts.mem
  have huncut : clampUnit (shareMean exact occurrences) = shareMean exact occurrences := by
    simp [clampUnit, not_lt.mpr low, not_lt.mpr high]
  rw [exactConfidence_eq hne, huncut]
  exact shareMean_between hne h

lemma exactConfidence_perm (hne : occurrences ≠ []) (perm : others.Perm occurrences) :
    exactConfidence exact others = exactConfidence exact occurrences := by
  have hne' : others ≠ [] := fun hnil => hne (List.nil_perm.mp (hnil ▸ perm))
  simp only [exactConfidence_eq hne, exactConfidence_eq hne', shareMean, share_perm perm,
    (perm.map _).sum_eq]

/-- The weight of a confidence may be divided between two occurrences. -/
lemma exactConfidence_split {first second : Occurrence} (hfirst : 0 < first.frequency)
    (hsecond : 0 < second.frequency) (hwhole : first.frequency + second.frequency = o.frequency)
    (alike : exact first.confidence = exact o.confidence ∧
      exact second.confidence = exact o.confidence) (rest : List Occurrence) :
    exactConfidence exact (first :: second :: rest) = exactConfidence exact (o :: rest) := by
  have hone : ¬ ∀ other ∈ o :: rest, other.frequency = 0 := by
    intro none
    have := none o (List.mem_cons_self ..)
    omega
  have htwo : ¬ ∀ other ∈ first :: second :: rest, other.frequency = 0 := by
    intro none
    have := none first (List.mem_cons_self ..)
    omega
  have hcast : (o.frequency : K) = first.frequency + second.frequency := by
    rw [← hwhole, Nat.cast_add]
  simp only [exactConfidence_eq (List.cons_ne_nil _ _), shareMean, share_of_some hone,
    share_of_some htwo, List.map_cons, List.sum_cons, alike, hcast, add_mul, add_assoc]

/-- What makes the weighted confidence a mean: it is between the smallest and the largest
confidence that counts, and depends neither on the order of the occurrences nor on how the weight
of a confidence is divided. -/
structure Averaged (exact : Float → K) (occurrences : List Occurrence) : Prop where
  least : ∃ o, Counts occurrences o ∧
    (∀ other, Counts occurrences other → exact o.confidence ≤ exact other.confidence) ∧
    exact o.confidence ≤ exactConfidence exact occurrences
  greatest : ∃ o, Counts occurrences o ∧
    (∀ other, Counts occurrences other → exact other.confidence ≤ exact o.confidence) ∧
    exactConfidence exact occurrences ≤ exact o.confidence
  permuted : ∀ others : List Occurrence, others.Perm occurrences →
    exactConfidence exact others = exactConfidence exact occurrences
  divided : ∀ o first second rest, occurrences.Perm (o :: rest) →
    0 < first.frequency → 0 < second.frequency →
    first.frequency + second.frequency = o.frequency →
    exact first.confidence = exact o.confidence → exact second.confidence = exact o.confidence →
    ∀ others : List Occurrence, others.Perm (first :: second :: rest) →
      exactConfidence exact others = exactConfidence exact occurrences

/-- The weighted confidence of occurrences is a mean of confidences from 0 to 1. -/
theorem exactConfidence_averaged (hne : occurrences ≠ [])
    (unit : ∀ o ∈ occurrences, 0 ≤ exact o.confidence ∧ exact o.confidence ≤ 1) :
    Averaged exact occurrences := by
  have hfinite : {o | Counts occurrences o}.Finite :=
    occurrences.finite_toSet.subset fun o counts => counts.mem
  obtain ⟨least, hleast, hbelow⟩ :=
    Set.exists_min_image _ (fun o => exact o.confidence) hfinite (exists_counts hne)
  obtain ⟨greatest, hgreatest, habove⟩ :=
    Set.exists_max_image _ (fun o => exact o.confidence) hfinite (exists_counts hne)
  obtain ⟨low, high⟩ := exactConfidence_between hne unit fun o counts =>
    ⟨hbelow o counts, habove o counts⟩
  exact {
    least := ⟨least, hleast, hbelow, low⟩
    greatest := ⟨greatest, hgreatest, habove, high⟩
    permuted := fun others perm => exactConfidence_perm hne perm
    divided := by
      intro o first second rest hone hfirst hsecond hwhole hlike hlike' others htwo
      rw [exactConfidence_perm (List.cons_ne_nil _ _) htwo,
        exactConfidence_split hfirst hsecond hwhole ⟨hlike, hlike'⟩,
        exactConfidence_perm hne hone.symm] }

end WeightedMean

/-- The number that a float stands for, where it stands for one. -/
def numberOf (x : Float) : ℚ :=
  match x.toModel.unpack with
  | .finite .positive m e _ => m * 2 ^ e
  | .finite .negative m e _ => -(m * 2 ^ e)
  | _ => 0

/-- Two projects that follow a rule, and one in which it has no weight. -/
def sampleShares : List Occurrence :=
  [⟨"P0001", "p", 5, 0.75, []⟩, ⟨"P0002", "p", 0, 0.0, []⟩, ⟨"P0003", "p", 15, 0.25, []⟩]

theorem sampleShares_averaged : sampleShares ≠ [] ∧
    (∀ o ∈ sampleShares, 0 ≤ numberOf o.confidence ∧ numberOf o.confidence ≤ 1) ∧
    Averaged numberOf sampleShares ∧ exactConfidence numberOf sampleShares = 3 / 8 := by
  have hhigh : numberOf 0.75 = 3 / 4 := by
    change ((3 * 2 ^ 51 : Nat) : ℚ) * 2 ^ (-53 : Int) = 3 / 4
    norm_num
  have hlow : numberOf 0.25 = 1 / 4 := by
    change ((2 ^ 52 : Nat) : ℚ) * 2 ^ (-54 : Int) = 1 / 4
    norm_num
  have hzero : numberOf 0.0 = 0 := rfl
  have hne : sampleShares ≠ [] := List.cons_ne_nil _ _
  have unit : ∀ o ∈ sampleShares, 0 ≤ numberOf o.confidence ∧ numberOf o.confidence ≤ 1 := by
    norm_num [sampleShares, hhigh, hlow, hzero]
  have hmean : exactConfidence numberOf sampleShares = 3 / 8 := by
    norm_num [exactConfidence, weightedMean, total, clampUnit, sampleShares, hhigh, hlow, hzero]
  exact ⟨hne, unit, exactConfidence_averaged hne unit, hmean⟩

end HouseStyle
