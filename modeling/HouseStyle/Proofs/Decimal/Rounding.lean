import HouseStyle.Proofs.Pattern.Confidence
import Mathlib.Data.Rat.Floor
import Mathlib.Tactic.FieldSimp
import Mathlib.Tactic.Linarith
import Mathlib.Tactic.NormNum
import Mathlib.Tactic.Positivity
import Mathlib.Tactic.Ring

/-!
# Floats next to rational numbers

A float of 53 bits is what is nearest to the quotient that it is computed from, whatever bits are
kept until it is rounded. So the quotient of two whole numbers is next to their share, equal shares
have one float, and the floats of shares that are well apart have a difference that is not small.
Only normal numbers come up here, which are stored as they are.
-/

namespace HouseStyle

namespace Binary64

open Float.Model
open Float.Model.UnpackedFloat (Accuracy ExtendedMantissa accuracyOfFraction roundWithAccuracy)

/-! ## The nearest number -/

/-- The number that is nearest to a quotient. Of two that are equally near it is the even one. -/
def nearest (num den : Nat) : Nat :=
  (accuracyOfFraction (num % den) den).roundToNearestEven (num / den)

variable {num den : Nat}

lemma nearest_bounds (num : Nat) (hden : 0 < den) :
    2 * num ≤ 2 * (den * nearest num den) + den ∧ 2 * (den * nearest num den) ≤ 2 * num + den := by
  have hdivision := Nat.div_add_mod num den
  have hlt := Nat.mod_lt num hden
  have hnext : den * (num / den + 1) = den * (num / den) + den := Nat.mul_succ _ _
  unfold nearest accuracyOfFraction
  split
  · simp only [Accuracy.roundToNearestEven]
    omega
  · rcases Nat.lt_trichotomy (2 * (num % den)) den with h | h | h
    · simp only [Nat.compare_eq_lt.mpr h, Accuracy.roundToNearestEven]
      omega
    · simp only [Nat.compare_eq_eq.mpr h, Accuracy.roundToNearestEven]
      rcases Nat.mod_two_eq_zero_or_one (num / den) with heven | hodd
      · rw [heven, Nat.add_zero]
        omega
      · rw [hodd]
        omega
    · simp only [Nat.compare_eq_gt.mpr h, Accuracy.roundToNearestEven]
      omega

lemma nearest_scaled (num den : Nat) {c : Nat} (hc : 0 < c) : nearest (c * num) (c * den) = nearest num den := by
  have hcompare : compare (2 * (c * (num % den))) (c * den) = compare (2 * (num % den)) den := by
    rw [Nat.mul_left_comm]
    rcases Nat.lt_trichotomy (2 * (num % den)) den with h | h | h
    · rw [Nat.compare_eq_lt.mpr h, Nat.compare_eq_lt.mpr (Nat.mul_lt_mul_of_pos_left h hc)]
    · rw [h, Std.compare_self, Std.compare_self]
    · rw [Nat.compare_eq_gt.mpr h, Nat.compare_eq_gt.mpr (Nat.mul_lt_mul_of_pos_left h hc)]
  unfold nearest accuracyOfFraction
  rw [Nat.mul_div_mul_left _ _ hc, Nat.mul_mod_mul_left, hcompare]
  simp [Nat.ne_of_gt hc]

/-- Quotients that are equal are rounded alike. -/
lemma nearest_congr {num' den' : Nat} (hden : 0 < den) (hden' : 0 < den')
    (h : num * den' = num' * den) : nearest num den = nearest num' den' := by
  rw [← nearest_scaled num den hden', ← nearest_scaled num' den' hden,
    Nat.mul_comm den' num, h, Nat.mul_comm num' den, Nat.mul_comm den' den]

lemma nearest_one (n : Nat) : nearest n 1 = n := by
  simp [nearest, accuracyOfFraction, Nat.mod_one, Accuracy.roundToNearestEven]

/-- Rounding to 53 bits, as far as there are as many. -/
lemma nearest_mantissa (num : Nat) (hden : 0 < den) (low : 2 ^ 52 * den ≤ num) (high : num < 2 ^ 53 * den) :
    2 ^ 52 ≤ nearest num den ∧ nearest num den ≤ 2 ^ 53 := by
  obtain ⟨hbelow, habove⟩ := nearest_bounds num hden
  constructor
  · by_contra hsmall
    have : den * (nearest num den + 1) ≤ den * 2 ^ 52 := Nat.mul_le_mul_left _ (by omega)
    rw [Nat.mul_succ] at this
    omega
  · by_contra hlarge
    have : den * (2 ^ 53 + 1) ≤ den * nearest num den := Nat.mul_le_mul_left _ (by omega)
    rw [Nat.mul_succ] at this
    omega

/-! ## Quotients that are shifted -/

/-- What is kept of a quotient until it is rounded. -/
def quotient (num den : Nat) : ExtendedMantissa :=
  .ofMantissaAndAccuracy (num / den) (accuracyOfFraction (num % den) den)

lemma quotient_rounded : (quotient num den).roundedMantissa = nearest num den := by
  unfold quotient nearest ExtendedMantissa.roundedMantissa
  cases accuracyOfFraction (num % den) den with
  | exact => rfl
  | inexact order => cases order <;> rfl

lemma quotient_eq : quotient num den = ⟨num / den,
    decide (num % den ≠ 0 ∧ den ≤ 2 * (num % den)),
    decide (num % den ≠ 0 ∧ den ≠ 2 * (num % den))⟩ := by
  unfold quotient accuracyOfFraction
  split
  · next h => simp [h, ExtendedMantissa.ofMantissaAndAccuracy]
  · next hne =>
    rcases Nat.lt_trichotomy (2 * (num % den)) den with h | h | h
    · have : ¬ den ≤ 2 * (num % den) := by omega
      have : den ≠ 2 * (num % den) := by omega
      simp [Nat.compare_eq_lt.mpr h, ExtendedMantissa.ofMantissaAndAccuracy, *]
    · have : den ≤ 2 * (num % den) := by omega
      simp [ExtendedMantissa.ofMantissaAndAccuracy, *]
    · have : den ≤ 2 * (num % den) := by omega
      have : den ≠ 2 * (num % den) := by omega
      simp [Nat.compare_eq_gt.mpr h, ExtendedMantissa.ofMantissaAndAccuracy, *]

/-- A shift halves a quotient. -/
lemma quotient_shiftRightOne (hden : 0 < den) :
    (quotient num den).shiftRightOne = quotient num (den * 2) := by
  have hmod : num % (den * 2) = num % den + den * (num / den % 2) := Nat.mod_mul
  have hlt := Nat.mod_lt num hden
  have hbit := Nat.mod_two_eq_zero_or_one (num / den)
  have hround : (num / den % 2 != 0) =
      decide (num % (den * 2) ≠ 0 ∧ den * 2 ≤ 2 * (num % (den * 2))) := by
    rw [Bool.eq_iff_iff, bne_iff_ne, decide_eq_true_iff, hmod]
    rcases hbit with hbit | hbit <;> rw [hbit] <;> omega
  have hsticky : (decide (num % den ≠ 0 ∧ den ≤ 2 * (num % den)) ||
      decide (num % den ≠ 0 ∧ den ≠ 2 * (num % den))) =
        decide (num % (den * 2) ≠ 0 ∧ den * 2 ≠ 2 * (num % (den * 2))) := by
    rw [Bool.eq_iff_iff, Bool.or_eq_true, decide_eq_true_iff, decide_eq_true_iff,
      decide_eq_true_iff, hmod]
    rcases hbit with hbit | hbit <;> rw [hbit] <;> omega
  rw [quotient_eq, quotient_eq, ExtendedMantissa.shiftRightOne,
    Nat.div_div_eq_div_mul, hround, hsticky]

lemma quotient_shiftRight (hden : 0 < den) (k : Nat) :
    quotient num den >>> k = quotient num (den * 2 ^ k) := by
  induction k with
  | zero => rw [Nat.pow_zero, Nat.mul_one]; rfl
  | succ k ih =>
    change (quotient num den >>> k).shiftRightOne = _
    rw [ih, quotient_shiftRightOne (Nat.mul_pos hden (Nat.two_pow_pos k)), Nat.pow_succ,
      Nat.mul_assoc]

/-! ## Rounding -/

variable {sign : UnpackedFloat.Sign} {m k : Nat} {e : Int}

/-- The last stage of rounding, where a mantissa may have become one bit too long. -/
def finish (sign : UnpackedFloat.Sign) (m : Nat) (e : Int) : UnpackedFloat :=
  let shifted := UnpackedFloat.shiftToTargetExponent .binary64 m e .exact
  if h : shifted.1.mantissa = 0 then .zero sign
  else .finite sign shifted.1.mantissa shifted.2 (Nat.pos_of_ne_zero h)

lemma finish_short (low : 2 ^ 52 ≤ m) (high : m < 2 ^ 53) (he : -1074 ≤ e) :
    finish sign m e = .finite sign m e (by omega) := by
  have hlog : m.log2 = 52 := (Nat.log2_eq_iff (by omega)).mpr ⟨low, high⟩
  have hshift : (max ((m.log2 : Int) + 1 + e - 53) (-1074) - e).toNat = 0 := by omega
  have hmantissa : (ExtendedMantissa.ofMantissaAndAccuracy m .exact >>> 0).mantissa =
      m := rfl
  unfold finish UnpackedFloat.shiftToTargetExponent UnpackedFloat.shiftToExponent
  simp only [targetExponent_eq, hshift, hmantissa]
  rw [dif_neg (by omega)]
  simp

lemma finish_long (he : -1074 ≤ e) :
    finish sign (2 ^ 53) e = .finite sign (2 ^ 52) (e + 1) (by decide) := by
  have hlog : (2 ^ 53).log2 = 53 := Nat.log2_two_pow
  have hshift : (max (((2 ^ 53).log2 : Int) + 1 + e - 53) (-1074) - e).toNat = 1 := by omega
  have hmantissa : (ExtendedMantissa.ofMantissaAndAccuracy (2 ^ 53) .exact >>>
      1).mantissa = 2 ^ 52 := rfl
  unfold finish UnpackedFloat.shiftToTargetExponent UnpackedFloat.shiftToExponent
  simp only [targetExponent_eq, hshift, hmantissa]
  rw [dif_neg (by decide)]
  simp

/-- Rounding a quotient. The number of bits by which its mantissa is too long is known. -/
lemma roundWithAccuracy_quotient (hden : 0 < den) (low : 2 ^ 52 * (den * 2 ^ k) ≤ num)
    (high : num < 2 ^ 53 * (den * 2 ^ k)) (he : -1074 ≤ e + k) :
    roundWithAccuracy .binary64 sign (num / den) e
      (accuracyOfFraction (num % den) den) =
        finish sign (nearest num (den * 2 ^ k)) (e + k) := by
  have hlog : (num / den).log2 = 52 + k := by
    have hlow : 2 ^ (52 + k) ≤ num / den := by
      rw [Nat.le_div_iff_mul_le hden, Nat.pow_add, Nat.mul_assoc, Nat.mul_comm _ den]
      exact low
    refine (Nat.log2_eq_iff (by have := Nat.two_pow_pos (52 + k); omega)).mpr ⟨hlow, ?_⟩
    rw [Nat.div_lt_iff_lt_mul hden, Nat.add_right_comm, Nat.pow_add, Nat.mul_assoc,
      Nat.mul_comm _ den]
    exact high
  have hshift : (max (((num / den).log2 : Int) + 1 + e - 53) (-1074) - e).toNat = k := by omega
  unfold roundWithAccuracy UnpackedFloat.shiftToTargetExponent
    UnpackedFloat.shiftToExponent
  simp only [targetExponent_eq, hshift]
  change (let r := (quotient num den >>> k).roundedMantissa; finish sign r (e + k)) = _
  rw [quotient_shiftRight hden, quotient_rounded]

/-- Rounding a mantissa that is exact and too long by a number of bits. -/
lemma roundWithAccuracy_exact (low : 2 ^ 52 * 2 ^ k ≤ m) (high : m < 2 ^ 53 * 2 ^ k)
    (he : -1074 ≤ e + k) :
    roundWithAccuracy .binary64 sign m e .exact =
      finish sign (nearest m (2 ^ k)) (e + k) := by
  have hround : roundWithAccuracy .binary64 sign (m / 1) e (accuracyOfFraction (m % 1) 1) =
      finish sign (nearest m (1 * 2 ^ k)) (e + k) :=
    roundWithAccuracy_quotient Nat.one_pos (by omega) (by omega) he
  simpa [accuracyOfFraction, Nat.mod_one] using hround

/-- The mantissa of a number, brought to 53 bits. -/
lemma scaled_bounds {n : Nat} (hn : 0 < n) (hlog : n.log2 ≤ 52) :
    2 ^ 52 ≤ n * 2 ^ (52 - n.log2) ∧ n * 2 ^ (52 - n.log2) < 2 ^ 53 := by
  obtain ⟨hlow, hhigh⟩ := (Nat.log2_eq_iff (Nat.ne_of_gt hn)).mp rfl
  have hpow : 2 ^ n.log2 * 2 ^ (52 - n.log2) = 2 ^ 52 := by
    rw [← Nat.pow_add]
    congr 1
    omega
  have := Nat.mul_le_mul_right (2 ^ (52 - n.log2)) hlow
  have := Nat.mul_lt_mul_of_pos_right hhigh (Nat.two_pow_pos (52 - n.log2))
  rw [Nat.pow_succ, Nat.mul_right_comm] at this
  omega

/-- A mantissa of at most 53 bits is exact. -/
lemma round_short (hm : 0 < m) (hlog : m.log2 ≤ 52) (he : -1074 ≤ m.log2 + e - 52) :
    UnpackedFloat.round .binary64 sign m e =
      finish sign (m * 2 ^ (52 - m.log2)) (m.log2 + e - 52) := by
  obtain ⟨low, high⟩ := scaled_bounds hm hlog
  have hshift : (e - max ((m.log2 : Int) + 1 + e - 53) (-1074)).toNat = 52 - m.log2 := by omega
  have hexponent : e - ((52 - m.log2 : Nat) : Int) = m.log2 + e - 52 := by omega
  have hround : roundWithAccuracy .binary64 sign (m * 2 ^ (52 - m.log2)) (m.log2 + e - 52) .exact =
      finish sign (nearest (m * 2 ^ (52 - m.log2)) (2 ^ 0)) (m.log2 + e - 52 + (0 : Nat)) :=
    roundWithAccuracy_exact (by omega) (by omega) (by omega)
  unfold UnpackedFloat.round UnpackedFloat.decreaseExponent
  simp only [targetExponent_eq, hshift, hexponent, Nat.shiftLeft_eq]
  simpa [nearest_one] using hround

/-- A longer one is rounded. -/
lemma round_long (sign : UnpackedFloat.Sign) (hm : 0 < m) (hlog : 52 ≤ m.log2) (he : -1074 ≤ m.log2 + e - 52) :
    UnpackedFloat.round .binary64 sign m e =
        finish sign (nearest m (2 ^ (m.log2 - 52))) (m.log2 + e - 52) ∧
      2 ^ 52 ≤ nearest m (2 ^ (m.log2 - 52)) ∧ nearest m (2 ^ (m.log2 - 52)) ≤ 2 ^ 53 := by
  obtain ⟨hlow, hhigh⟩ := (Nat.log2_eq_iff (Nat.ne_of_gt hm)).mp rfl
  have hshift : (e - max ((m.log2 : Int) + 1 + e - 53) (-1074)).toNat = 0 := by omega
  have hexponent : e + ((m.log2 - 52 : Nat) : Int) = m.log2 + e - 52 := by omega
  have hpow : 2 ^ 52 * 2 ^ (m.log2 - 52) = 2 ^ m.log2 := by
    rw [← Nat.pow_add]
    congr 1
    omega
  rw [Nat.pow_succ] at hhigh
  have hround : roundWithAccuracy .binary64 sign m e .exact =
      finish sign (nearest m (2 ^ (m.log2 - 52))) (e + (m.log2 - 52 : Nat)) :=
    roundWithAccuracy_exact (by omega) (by omega) (by omega)
  rw [hexponent] at hround
  refine ⟨?_, nearest_mantissa m (Nat.two_pow_pos _) (by omega) (by omega)⟩
  unfold UnpackedFloat.round UnpackedFloat.decreaseExponent
  simp only [targetExponent_eq, hshift, Nat.shiftLeft_zero]
  simpa using hround

/-- Any mantissa is rounded to 53 bits. -/
lemma round_normal (sign : UnpackedFloat.Sign) (hm : 0 < m) (he : -1074 ≤ m.log2 + e - 52) :
    ∃ r, 2 ^ 52 ≤ r ∧ r ≤ 2 ^ 53 ∧
      UnpackedFloat.round .binary64 sign m e = finish sign r (m.log2 + e - 52) := by
  rcases Nat.le_total m.log2 52 with hlog | hlog
  · obtain ⟨low, high⟩ := scaled_bounds hm hlog
    exact ⟨_, low, Nat.le_of_lt high, round_short hm hlog he⟩
  · obtain ⟨hround, low, high⟩ := round_long sign hm hlog he
    exact ⟨_, low, high, hround⟩

/-! ## Normal numbers -/

lemma toNat_append {width : Nat} (a : BitVec width) {width' : Nat} (b : BitVec width') :
    (a ++ b).toNat = a.toNat * 2 ^ width' + b.toNat := by
  rw [BitVec.toNat_append, ← Nat.shiftLeft_add_eq_or_of_lt b.isLt, Nat.shiftLeft_eq]

lemma unpackSign_packComponents {exponent : BitVec 11} {mantissa : BitVec 52} :
    UnpackedFloat.Sign.ofBitVec (UnpackedFloat.unpackSign
      (UnpackedFloat.packComponents .binary64 sign exponent mantissa)) = sign := by
  have hbit : UnpackedFloat.unpackSign
      (UnpackedFloat.packComponents .binary64 sign exponent mantissa) = sign.toBitVec := by
    have := sign.toBitVec.isLt
    have := exponent.isLt
    have := mantissa.isLt
    unfold UnpackedFloat.unpackSign UnpackedFloat.packComponents
    apply BitVec.eq_of_toNat_eq
    rw [BitVec.toNat_cast]
    change ((sign.toBitVec ++ exponent ++ mantissa).extractLsb 63 63).toNat = _
    rw [BitVec.extractLsb_toNat, toNat_append, toNat_append, Nat.shiftRight_eq_div_pow]
    omega
  rw [hbit]
  cases sign <;> rfl

/-- A normal number is stored as it is. -/
lemma unpack_pack_normal {hm : 0 < m} (low : 2 ^ 52 ≤ m) (high : m < 2 ^ 53) (he : -1074 ≤ e)
    (he' : e ≤ 971) : (pack (.finite sign m e hm)).unpack = .finite sign m e hm := by
  have hlog : m.log2 = 52 := (Nat.log2_eq_iff (by omega)).mpr ⟨low, high⟩
  have hexponent : (BitVec.ofNat Format.binary64.exponentBits (e + 1075).toNat).toNat =
      (e + 1075).toNat := by
    rw [BitVec.toNat_ofNat]
    exact Nat.mod_eq_of_lt (by show _ < 2 ^ 11; omega)
  have hmantissa : (1#1 ++ BitVec.ofNat Format.binary64.mantissaBitsWithoutImplicit m).toNat =
      m := by
    rw [toNat_append, BitVec.toNat_ofNat]
    change 1 * 2 ^ 52 + m % 2 ^ 52 = m
    omega
  have hne : ∀ stored : BitVec Format.binary64.exponentBits,
      stored.toNat = 2047 ∨ stored.toNat = 0 →
        ¬ BitVec.ofNat Format.binary64.exponentBits (e + 1075).toNat = stored := by
    rintro stored h rfl
    omega
  change UnpackedFloat.unpack .binary64 (UnpackedFloat.pack .binary64 _) = _
  rw [pack_finite, if_neg (by omega), if_pos hlog]
  unfold UnpackedFloat.unpack
  simp only [UnpackedFloat.unpackExponent_packComponents,
    UnpackedFloat.unpackMantissa_packComponents, unpackSign_packComponents]
  rw [if_neg (hne _ (.inl (by decide))), if_neg (hne _ (.inr (by decide)))]
  simp only [UnpackedFloat.finite.injEq, true_and]
  refine ⟨hmantissa, ?_⟩
  rw [hexponent]
  show ((e + 1075).toNat : Int) - (1023 + 52) = e
  omega

/-- A normal number: its mantissa has 53 bits. -/
structure IsNormal (x : UnpackedFloat) (sign : UnpackedFloat.Sign) (m : Nat) (e : Int) : Prop where
  eq : ∃ hm, x = .finite sign m e hm
  low : 2 ^ 52 ≤ m
  high : m < 2 ^ 53

lemma finish_normal (sign : UnpackedFloat.Sign) {r : Nat} {t : Int} (low : 2 ^ 52 ≤ r)
    (high : r ≤ 2 ^ 53) (ht : -1074 ≤ t) :
    ∃ m e, IsNormal (finish sign r t) sign m e ∧ t ≤ e ∧ e ≤ t + 1 ∧
      (m : ℚ) * 2 ^ e = r * 2 ^ t := by
  rcases Nat.lt_or_eq_of_le high with hshort | rfl
  · exact ⟨r, t, ⟨⟨_, finish_short low hshort ht⟩, low, hshort⟩, by omega, by omega, rfl⟩
  · refine ⟨2 ^ 52, t + 1, ⟨⟨_, finish_long ht⟩, by omega, by omega⟩, by omega, by omega, ?_⟩
    rw [zpow_add₀ (by norm_num)]
    push_cast
    ring

lemma IsNormal.stored {u : UnpackedFloat} (normal : IsNormal u sign m e) (he : -1074 ≤ e)
    (he' : e ≤ 971) : IsNormal (pack u).unpack sign m e := by
  obtain ⟨⟨hm, rfl⟩, low, high⟩ := normal
  exact ⟨⟨hm, unpack_pack_normal low high he he'⟩, low, high⟩

/-- A normal number of at most one has no exponent above that of one. -/
lemma IsNormal.exponent_le {u : UnpackedFloat} (normal : IsNormal u sign m e)
    (h : (m : ℚ) * 2 ^ e ≤ 1) : e ≤ -52 := by
  have hmore : (2 : ℚ) ^ (52 : Int) ≤ m := by exact_mod_cast normal.low
  have : 52 + e ≤ 0 := by
    refine (zpow_le_zpow_iff_right₀ (show (1 : ℚ) < 2 by norm_num)).mp ?_
    calc (2 : ℚ) ^ (52 + e) = 2 ^ (52 : Int) * 2 ^ e := zpow_add₀ (by norm_num) _ _
      _ ≤ m * 2 ^ e := mul_le_mul_of_nonneg_right hmore (zpow_nonneg (by norm_num) e)
      _ ≤ 2 ^ (0 : Int) := h
  omega

/-- A normal number of at most one lies between 0 and 1. -/
lemma IsNormal.inUnit {x : Float} (normal : IsNormal x.toModel.unpack .positive m e)
    (h : (m : ℚ) * 2 ^ e ≤ 1) : InUnit x := by
  have hexponent := normal.exponent_le h
  obtain ⟨⟨hm, heq⟩, -, -⟩ := normal
  refine ⟨?_, ?_, ?_⟩
  · change x.toModel.unpack.isFinite = true
    rw [heq]
    rfl
  · rw [lt_iff, unpack_zero, heq]
    exact Bool.false_ne_true
  · rw [lt_iff, unpack_one, heq]
    rcases Int.lt_or_eq_of_le hexponent with hless | rfl
    · change ¬ (some ((compare (-52) e).then (compare (2 ^ 52) m)) == some .lt) = true
      rw [Int.compare_eq_gt.mpr hless]
      exact Bool.false_ne_true
    · have hle : m ≤ 2 ^ 52 := by
        rw [zpow_neg, mul_inv_le_iff₀ (by positivity), one_mul] at h
        exact_mod_cast h
      change ¬ (some ((compare (-52 : Int) (-52)).then (compare (2 ^ 52) m)) == some .lt) = true
      rw [Std.compare_self, Ordering.eq_then]
      intro hlt
      have := Nat.compare_eq_lt.mp (Option.some.inj (beq_iff_eq.mp hlt))
      omega

/-! ## Shares -/

/-- A whole number of at most 53 bits is a float, as a word. -/
lemma unpack_toFloat {n : Nat} (hn : 0 < n) (hn' : n < 2 ^ 53) :
    IsNormal n.toUInt64.toFloat.toModel.unpack .positive (n * 2 ^ (52 - n.log2))
      (n.log2 - 52) := by
  have hlog : n.log2 ≤ 52 := by
    have := (Nat.log2_lt (Nat.ne_of_gt hn)).mpr hn'
    omega
  obtain ⟨low, high⟩ := scaled_bounds hn hlog
  have hword : n.toUInt64.toNat = n := by
    rw [Nat.toUInt64_eq, UInt64.toNat_ofNat']
    exact Nat.mod_eq_of_lt (by omega)
  change IsNormal (pack (UnpackedFloat.ofNat .binary64 n.toUInt64.toNat)).unpack _ _ _
  refine IsNormal.stored ⟨⟨by omega, ?_⟩, low, high⟩ (by omega) (by omega)
  rw [hword, UnpackedFloat.ofNat, UnpackedFloat.ofInt, UnpackedFloat.normalize,
    Int.compare_eq_gt.mpr (by omega)]
  simp only [Int.toNat_natCast]
  rw [round_short hn hlog (by omega), Int.add_zero, finish_short low high (by omega)]

/-- One makes no difference. -/
lemma unpack_mul_one {x : Float} (hx : IsNormal x.toModel.unpack .positive m e)
    (he : -1074 ≤ e) (he' : e ≤ 971) :
    IsNormal (x * Float.ofBits 0x3FF0000000000000).toModel.unpack .positive m e := by
  obtain ⟨⟨hm, heq⟩, low, high⟩ := hx
  have hone : (Float.ofBits 0x3FF0000000000000).toModel.unpack =
      .finite .positive (2 ^ 52) (-52) (by decide) := rfl
  have hnearest : nearest (m * 2 ^ 52) (2 ^ 52) = m :=
    (nearest_congr (by decide) Nat.one_pos (Nat.mul_one _)).trans (nearest_one m)
  have hround : roundWithAccuracy .binary64 .positive (m * 2 ^ 52) (e + -52) .exact =
      finish .positive (nearest (m * 2 ^ 52) (2 ^ 52)) (e + -52 + (52 : Nat)) :=
    roundWithAccuracy_exact (by omega) (by omega) (by omega)
  rw [hnearest, show e + -52 + (52 : Nat) = e by omega, finish_short low high he] at hround
  change IsNormal (pack (UnpackedFloat.mul _ x.toModel.unpack
    (Float.ofBits 0x3FF0000000000000).toModel.unpack)).unpack _ _ _
  rw [heq, hone]
  exact IsNormal.stored ⟨⟨hm, hround⟩, low, high⟩ he he'

/-- A whole number of at most 53 bits is a float. -/
lemma unpack_ofNat {n : Nat} (hn : 0 < n) (hn' : n < 2 ^ 53) :
    IsNormal (Float.ofNat n).toModel.unpack .positive (n * 2 ^ (52 - n.log2)) (n.log2 - 52) := by
  have hfloat : Float.ofNat n = n.toUInt64.toFloat * Float.ofBits 0x3FF0000000000000 := by
    change Float.ofScientific n false 0 = _
    rw [Float.ofScientific, dif_pos ⟨hn', by decide⟩]
    rfl
  have hlog := (Nat.log2_lt (Nat.ne_of_gt hn)).mpr hn'
  rw [hfloat]
  exact unpack_mul_one (unpack_toFloat hn hn') (by omega) (by omega)

/-- The quotient of normal numbers. That of their mantissas is too long by `more` bits. -/
lemma div_normal {u v : UnpackedFloat} {m' more : Nat} {e' : Int}
    (hu : IsNormal u .positive m e) (hv : IsNormal v .positive m' e')
    (low : 2 ^ 52 * (m' * 2 ^ more) ≤ m * 2 ^ 53) (high : m * 2 ^ 53 < 2 ^ 53 * (m' * 2 ^ more))
    (he : -1074 ≤ e - e' - 53) :
    UnpackedFloat.div .binary64 u v =
      finish .positive (nearest (m * 2 ^ 53) (m' * 2 ^ more)) (e - e' - 53 + more) := by
  obtain ⟨⟨hm, rfl⟩, hlow, hhigh⟩ := hu
  obtain ⟨⟨hm', rfl⟩, hlow', hhigh'⟩ := hv
  have htarget : Format.binary64.targetExponent (totalExponent m e - totalExponent m' e') =
      e - e' - 53 := by
    have hbits : Format.binary64.mantissaBits = 53 := by decide
    have hmin : Format.binary64.minExponent = -1074 := by decide
    have hlog := (Nat.log2_eq_iff (by omega)).mpr ⟨hlow, hhigh⟩
    have hlog' := (Nat.log2_eq_iff (by omega)).mpr ⟨hlow', hhigh'⟩
    rw [Format.targetExponent, totalExponent, totalExponent, hbits, hmin, hlog, hlog']
    omega
  simp only [UnpackedFloat.div, UnpackedFloat.divCore, htarget]
  rw [Int.min_eq_right (by omega), Nat.shiftLeft_eq,
    show (e - e' - (e - e' - 53)).toNat = 53 by omega]
  exact roundWithAccuracy_quotient hm' low high (by omega)

/-- A quotient of numbers is the nearest float. It has `j` bits below the point. -/
lemma div_ofNat {n j : Nat} (hk : 0 < k) (hk' : k < 2 ^ 53) (hn : 0 < n) (hn' : n < 2 ^ 53)
    (low : n * 2 ^ 52 ≤ k * 2 ^ j) (high : k * 2 ^ j < n * 2 ^ 53) :
    UnpackedFloat.div .binary64 (Float.ofNat k).toModel.unpack (Float.ofNat n).toModel.unpack =
      finish .positive (nearest (k * 2 ^ j) n) (-j) := by
  have hklog := (Nat.log2_lt (Nat.ne_of_gt hk)).mpr hk'
  have hnlog := (Nat.log2_lt (Nat.ne_of_gt hn)).mpr hn'
  have hnormal := unpack_ofNat hk hk'
  have hnormal' := unpack_ofNat hn hn'
  generalize ha : 52 - k.log2 = a at hnormal
  generalize hb : 52 - n.log2 = b at hnormal'
  obtain ⟨more, hmore⟩ : ∃ more, j + b + more = a + 53 := by
    have hless : k * 2 ^ j * 2 ^ b < 2 ^ 106 := by
      have := Nat.mul_lt_mul_of_pos_right high (Nat.two_pow_pos b)
      have := hnormal'.high
      rw [Nat.mul_right_comm n] at *
      omega
    have hle : j + b ≤ a + 53 := by
      by_contra hlarge
      have hpow : 2 ^ (a + 54) ≤ 2 ^ (j + b) := Nat.pow_le_pow_right (by decide) (by omega)
      have := Nat.mul_le_mul_left k hpow
      have := hnormal.low
      rw [Nat.pow_add, Nat.pow_add, ← Nat.mul_assoc, ← Nat.mul_assoc] at *
      omega
    exact ⟨a + 53 - (j + b), by omega⟩
  have hquotient : k * 2 ^ j * (2 ^ b * 2 ^ more) = k * 2 ^ a * 2 ^ 53 := by
    rw [Nat.mul_assoc, Nat.mul_assoc, ← Nat.pow_add, ← Nat.pow_add, ← Nat.pow_add, ← hmore,
      Nat.add_assoc]
  have hlow : 2 ^ 52 * (n * 2 ^ b * 2 ^ more) ≤ k * 2 ^ a * 2 ^ 53 := calc
    2 ^ 52 * (n * 2 ^ b * 2 ^ more) = n * 2 ^ 52 * (2 ^ b * 2 ^ more) := by ring
    _ ≤ k * 2 ^ j * (2 ^ b * 2 ^ more) := Nat.mul_le_mul_right _ low
    _ = k * 2 ^ a * 2 ^ 53 := hquotient
  have hhigh : k * 2 ^ a * 2 ^ 53 < 2 ^ 53 * (n * 2 ^ b * 2 ^ more) := calc
    k * 2 ^ a * 2 ^ 53 = k * 2 ^ j * (2 ^ b * 2 ^ more) := hquotient.symm
    _ < n * 2 ^ 53 * (2 ^ b * 2 ^ more) := Nat.mul_lt_mul_of_pos_right high (by positivity)
    _ = 2 ^ 53 * (n * 2 ^ b * 2 ^ more) := by ring
  have hnearest : nearest (k * 2 ^ a * 2 ^ 53) (n * 2 ^ b * 2 ^ more) = nearest (k * 2 ^ j) n := by
    refine nearest_congr (by positivity) hn ?_
    rw [← hquotient]
    ring
  rw [div_normal hnormal hnormal' hlow hhigh (by omega), hnearest]
  congr 1
  omega

/-- Where the point of a quotient goes. -/
lemma exists_scale {n : Nat} (hk : 0 < k) (hkn : k ≤ n) :
    ∃ j, 52 ≤ j ∧ n * 2 ^ 52 ≤ k * 2 ^ j ∧ k * 2 ^ j < n * 2 ^ 53 := by
  have hsome : ∃ j, n * 2 ^ 52 ≤ k * 2 ^ j := by
    refine ⟨n + 52, ?_⟩
    rw [Nat.pow_add, ← Nat.mul_assoc]
    have hn : n ≤ 2 ^ n := Nat.le_of_lt Nat.lt_two_pow_self
    exact Nat.mul_le_mul_right _ (Nat.le_trans hn (Nat.le_mul_of_pos_left _ hk))
  have hleast : ∀ i < Nat.find hsome, ¬ n * 2 ^ 52 ≤ k * 2 ^ i := fun i => Nat.find_min hsome
  have hlow := Nat.find_spec hsome
  generalize Nat.find hsome = j at hleast hlow
  have hj : 52 ≤ j := by
    by_contra hsmall
    have hpow : 2 ^ (j + 1) ≤ 2 ^ 52 := Nat.pow_le_pow_right (by decide) (by omega)
    have := Nat.mul_le_mul hkn hpow
    rw [Nat.pow_succ, ← Nat.mul_assoc] at this
    have : 0 < k * 2 ^ j := Nat.mul_pos hk (Nat.two_pow_pos j)
    omega
  refine ⟨j, hj, hlow, ?_⟩
  obtain ⟨i, rfl⟩ : ∃ i, j = i + 1 := ⟨j - 1, by omega⟩
  have := hleast i (Nat.lt_succ_self i)
  rw [Nat.pow_succ, ← Nat.mul_assoc]
  omega

lemma nearest_le_two_pow {n j : Nat} (hn : 0 < n) (hkn : k ≤ n) :
    nearest (k * 2 ^ j) n ≤ 2 ^ j := by
  obtain ⟨-, habove⟩ := nearest_bounds (k * 2 ^ j) hn
  by_contra hlarge
  have := Nat.mul_le_mul_right (2 ^ j) hkn
  have : n * (2 ^ j + 1) ≤ n * nearest (k * 2 ^ j) n := Nat.mul_le_mul_left n (by omega)
  rw [Nat.mul_succ] at this
  omega

/-- Rounding to `j` bits below the point changes a share by half a bit at most. -/
lemma nearest_near {n j : Nat} (hn : 0 < n) (hj : 52 ≤ j) :
    |(nearest (k * 2 ^ j) n : ℚ) * 2 ^ (-j : Int) - k / n| ≤ 2 ^ (-53 : Int) := by
  obtain ⟨hbelow, habove⟩ := nearest_bounds (k * 2 ^ j) hn
  generalize nearest (k * 2 ^ j) n = r at hbelow habove
  have hn' : (0 : ℚ) < n := by exact_mod_cast hn
  have hpow : (0 : ℚ) < 2 ^ j := by positivity
  have hfraction : (r : ℚ) * (2 ^ j)⁻¹ - k / n = (n * r - k * 2 ^ j) / (n * 2 ^ j) := by
    field_simp
  have hdistance : |(n : ℚ) * r - k * 2 ^ j| ≤ n / 2 := by
    have hone : (2 : ℚ) * (k * 2 ^ j) ≤ 2 * (n * r) + n := by exact_mod_cast hbelow
    have htwo : (2 : ℚ) * (n * r) ≤ 2 * (k * 2 ^ j) + n := by exact_mod_cast habove
    exact abs_le.mpr ⟨by linarith, by linarith⟩
  have hbits : (2 : ℚ) ^ 52 ≤ 2 ^ j := pow_le_pow_right₀ (by norm_num) hj
  rw [zpow_neg, zpow_natCast, hfraction, abs_div, abs_of_pos (mul_pos hn' hpow),
    div_le_iff₀ (mul_pos hn' hpow)]
  calc |(n : ℚ) * r - k * 2 ^ j| ≤ n / 2 := hdistance
    _ = 2 ^ (-53 : Int) * (n * 2 ^ 52) := by norm_num; ring
    _ ≤ 2 ^ (-53 : Int) * (n * 2 ^ j) := by gcongr

/-- A share of numbers that are not large is a normal float next to it. -/
lemma unpack_quotient {n : Nat} (hk : 0 < k) (hkn : k ≤ n) (hn : n < 2 ^ 24) :
    ∃ m e, IsNormal (Float.ofNat k / Float.ofNat n).toModel.unpack .positive m e ∧
      -76 ≤ e ∧ (m : ℚ) * 2 ^ e ≤ 1 ∧ |(m : ℚ) * 2 ^ e - k / n| ≤ 2 ^ (-53 : Int) := by
  have hpos : 0 < n := Nat.lt_of_lt_of_le hk hkn
  obtain ⟨j, hj, hlow, hhigh⟩ := exists_scale hk hkn
  have hj' : j < 77 := by
    have hless : 2 ^ j < 2 ^ 77 := by
      have := Nat.le_mul_of_pos_left (2 ^ j) hk
      omega
    exact (Nat.pow_lt_pow_iff_right (by decide)).mp hless
  obtain ⟨low, high⟩ := nearest_mantissa (k * 2 ^ j) hpos (by omega) (by omega)
  obtain ⟨m, e, normal, hle, hge, hvalue⟩ := finish_normal .positive low high
    (t := -j) (by omega)
  rw [← div_ofNat hk (by omega) hpos (by omega) hlow hhigh] at normal
  refine ⟨m, e, normal.stored (by omega) (by omega), by omega, ?_, ?_⟩
  · rw [hvalue, zpow_neg, zpow_natCast, mul_inv_le_iff₀ (by positivity), one_mul]
    exact_mod_cast nearest_le_two_pow hpos hkn
  · rw [hvalue]
    exact nearest_near hpos hj

/-- Equal shares have the same float. -/
lemma div_congr {n k' n' : Nat} (hk : 0 < k) (hkn : k ≤ n) (hn : n < 2 ^ 53) (hk' : 0 < k')
    (hkn' : k' ≤ n') (hn' : n' < 2 ^ 53) (h : k * n' = k' * n) :
    Float.ofNat k / Float.ofNat n = Float.ofNat k' / Float.ofNat n' := by
  obtain ⟨j, -, hlow, hhigh⟩ := exists_scale hk hkn
  have hscaled : n * (k' * 2 ^ j) = n' * (k * 2 ^ j) := by
    rw [← Nat.mul_assoc, ← Nat.mul_assoc, Nat.mul_comm n k', Nat.mul_comm n' k, h]
  have hlow' : n' * 2 ^ 52 ≤ k' * 2 ^ j := by
    refine Nat.le_of_mul_le_mul_left (c := n) ?_ (by omega)
    rw [hscaled, Nat.mul_left_comm]
    exact Nat.mul_le_mul_left n' hlow
  have hhigh' : k' * 2 ^ j < n' * 2 ^ 53 := by
    refine Nat.lt_of_mul_lt_mul_left (a := n) ?_
    rw [hscaled, Nat.mul_left_comm n]
    exact Nat.mul_lt_mul_of_pos_left hhigh (by omega)
  apply eq_of_toModel
  change pack (UnpackedFloat.div _ _ _) = pack (UnpackedFloat.div _ _ _)
  rw [div_ofNat hk (by omega) (by omega) hn hlow hhigh,
    div_ofNat hk' (by omega) (by omega) hn' hlow' hhigh',
    nearest_congr (show 0 < n by omega) (show 0 < n' by omega)
      (by rw [Nat.mul_comm, ← hscaled, Nat.mul_comm])]

/-! ## Differences -/

lemma normalize_eq (e : Int) (sign : UnpackedFloat.Sign) {d : Int} (hd : d ≠ 0) : ∃ s, UnpackedFloat.normalize .binary64 d e sign =
    UnpackedFloat.round .binary64 s d.natAbs e := by
  unfold UnpackedFloat.normalize
  rcases Int.lt_trichotomy d 0 with h | h | h
  · rw [Int.compare_eq_lt.mpr h]
    exact ⟨.negative, by rw [show (-d).toNat = d.natAbs by omega]⟩
  · exact absurd h hd
  · rw [Int.compare_eq_gt.mpr h]
    exact ⟨.positive, by rw [show d.toNat = d.natAbs by omega]⟩

lemma shiftLeft_value {low : Int} (h : low ≤ e) :
    ((m <<< (e - low).toNat : Nat) : ℚ) * 2 ^ low = m * 2 ^ e := by
  rw [Nat.shiftLeft_eq, Nat.cast_mul, Nat.cast_pow, Nat.cast_two, ← zpow_natCast, mul_assoc,
    ← zpow_add₀ (by norm_num)]
  congr 2
  omega

/-- The difference of floats that are not too near. -/
lemma unpack_sub {x y : Float} {m' : Nat} {e' : Int}
    (hx : IsNormal x.toModel.unpack .positive m e)
    (hy : IsNormal y.toModel.unpack .positive m' e')
    (hfar : (2 : ℚ) ^ (-49 : Int) ≤ |(m : ℚ) * 2 ^ e - m' * 2 ^ e'|)
    (hnear : |(m : ℚ) * 2 ^ e - m' * 2 ^ e'| ≤ 1) :
    ∃ s r t, IsNormal (x - y).toModel.unpack s r t ∧ -101 ≤ t ∧ t ≤ -51 := by
  obtain ⟨⟨hm, hxeq⟩, -, -⟩ := hx
  obtain ⟨⟨hm', hyeq⟩, -, -⟩ := hy
  generalize hlow : min e e' = low
  generalize hd : ((m <<< (e - low).toNat : Nat) : Int) - (m' <<< (e' - low).toNat : Nat) = d
  have htwo : (1 : ℚ) < 2 := by norm_num
  have hpow : (0 : ℚ) < 2 ^ low := zpow_pos (by norm_num) low
  have hvalue : |(m : ℚ) * 2 ^ e - m' * 2 ^ e'| = d.natAbs * 2 ^ low := by
    rw [← shiftLeft_value (show low ≤ e by omega), ← shiftLeft_value (show low ≤ e' by omega),
      ← sub_mul, abs_mul, abs_of_pos hpow, Nat.cast_natAbs, ← hd]
    push_cast
    rfl
  rw [hvalue] at hfar hnear
  have hne : d ≠ 0 := by
    rintro rfl
    norm_num at hfar
  have hpos : 0 < d.natAbs := by omega
  obtain ⟨hbelow, habove⟩ := (Nat.log2_eq_iff (Nat.ne_of_gt hpos)).mp rfl
  have hlog : -49 < (d.natAbs.log2 : Int) + 1 + low := by
    have hless : (d.natAbs : ℚ) < 2 ^ ((d.natAbs.log2 : Int) + 1) := by exact_mod_cast habove
    refine (zpow_lt_zpow_iff_right₀ htwo).mp ?_
    calc (2 : ℚ) ^ (-49 : Int) ≤ d.natAbs * 2 ^ low := hfar
      _ < 2 ^ ((d.natAbs.log2 : Int) + 1) * 2 ^ low := mul_lt_mul_of_pos_right hless hpow
      _ = 2 ^ ((d.natAbs.log2 : Int) + 1 + low) := (zpow_add₀ (by norm_num) _ _).symm
  have hlog' : (d.natAbs.log2 : Int) + low ≤ 0 := by
    have hmore : (2 : ℚ) ^ (d.natAbs.log2 : Int) ≤ d.natAbs := by exact_mod_cast hbelow
    refine (zpow_le_zpow_iff_right₀ htwo).mp ?_
    calc (2 : ℚ) ^ ((d.natAbs.log2 : Int) + low)
        = 2 ^ (d.natAbs.log2 : Int) * 2 ^ low := zpow_add₀ (by norm_num) _ _
      _ ≤ d.natAbs * 2 ^ low := mul_le_mul_of_nonneg_right hmore (le_of_lt hpow)
      _ ≤ 2 ^ (0 : Int) := hnear
  obtain ⟨s, hnormalize⟩ := normalize_eq low .positive hne
  obtain ⟨r, hr, hr', hround⟩ := round_normal s hpos (e := low) (by omega)
  obtain ⟨r', t, normal, hle, hge, -⟩ := finish_normal s hr hr'
    (t := d.natAbs.log2 + low - 52) (by omega)
  refine ⟨s, r', t, ?_, by omega, by omega⟩
  change IsNormal (pack (UnpackedFloat.sub _ x.toModel.unpack y.toModel.unpack)).unpack s r' t
  refine IsNormal.stored ?_ (by omega) (by omega)
  rw [← hround, ← hnormalize] at normal
  rw [hxeq, hyeq]
  simp only [UnpackedFloat.sub, UnpackedFloat.decreaseExponent, hlow]
  change IsNormal (UnpackedFloat.normalize _ (((m <<< (e - low).toNat : Nat) : Int) -
    (m' <<< (e' - low).toNat : Nat)) low .positive) s r' t
  rw [hd]
  exact normal

/-- A zero makes no difference. -/
lemma unpack_sub_isZero {x y : Float} (hx : IsNormal x.toModel.unpack sign m e) (hy : IsZero y)
    (he : -1074 ≤ e) (he' : e ≤ 971) : IsNormal (x - y).toModel.unpack sign m e := by
  obtain ⟨⟨hm, hxeq⟩, low, high⟩ := hx
  obtain ⟨s, hy⟩ := hy
  change IsNormal (pack (UnpackedFloat.sub _ x.toModel.unpack y.toModel.unpack)).unpack _ _ _
  rw [hxeq, hy]
  exact IsNormal.stored ⟨⟨hm, rfl⟩, low, high⟩ he he'

lemma unpack_isZero_sub {x y : Float} (hx : IsZero x) (hy : IsNormal y.toModel.unpack sign m e)
    (he : -1074 ≤ e) (he' : e ≤ 971) : IsNormal (x - y).toModel.unpack (-sign) m e := by
  obtain ⟨s, hx⟩ := hx
  obtain ⟨⟨hm, hyeq⟩, low, high⟩ := hy
  change IsNormal (pack (UnpackedFloat.sub _ x.toModel.unpack y.toModel.unpack)).unpack _ _ _
  rw [hx, hyeq]
  exact IsNormal.stored ⟨⟨hm, rfl⟩, low, high⟩ he he'

end Binary64

end HouseStyle
