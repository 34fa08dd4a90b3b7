import HouseStyle.Decimal.Parts
import HouseStyle.Pattern.Confidence
import Mathlib

/-!
# Confidences are numbers

A NaN cannot be stored. None comes up: the base of a score lies between 0 and 1, so what a
recent sighting gains is the product of two finite numbers. Only the distance of the base to 1
needs the rounding of floats to be looked into, since it must not overflow. The difference of a
finite number and itself needs no rounding: it is a zero. Numbers are compared by where they stand,
which makes their order a linear one up to the sign of a zero.
-/

namespace HouseStyle

namespace Binary64

open Float.Model

/-! ## Stored forms -/

lemma isFinite_unpack (bits : BitVec Format.binary64.numBits) :
    (UnpackedFloat.unpack .binary64 bits).isFinite = true ↔
      UnpackedFloat.unpackExponent bits ≠ -1#_ := by
  unfold UnpackedFloat.unpack
  simp only
  split
  · next h =>
    rw [h]
    split <;> simp [UnpackedFloat.isFinite]
  · next h =>
    simp only [ne_eq, h, not_false_eq_true, iff_true]
    split
    · split <;> rfl
    · rfl

/-- An exponent beyond 971 overflows. -/
lemma pack_finite {sign : UnpackedFloat.Sign} {m : Nat} {e : Int} (hm : 0 < m) :
    UnpackedFloat.pack .binary64 (.finite sign m e hm) =
      if 971 < e then UnpackedFloat.packedInfinity .binary64 sign
      else UnpackedFloat.packComponents .binary64 sign
        (if m.log2 = 52 then BitVec.ofNat _ (e + 1075).toNat else 0#_) (BitVec.ofNat _ m) := by
  have hbias : e + Format.binary64.exponentBias + Format.binary64.mantissaBitsWithoutImplicit =
      e + 1075 := by
    change e + 1023 + 52 = _
    omega
  have hbits : 2 ^ Format.binary64.exponentBits = 2048 := by decide
  have hmantissa : Format.binary64.mantissaBits = 53 := by decide
  unfold UnpackedFloat.pack
  simp only [hbias, hbits, hmantissa]
  by_cases h : 971 < e
  · rw [if_pos (by omega), if_pos h]
  · rw [if_neg (by omega), if_neg h]
    by_cases hlog : m.log2 = 52
    · rw [if_pos (by omega), if_pos hlog]
    · rw [if_neg (by omega), if_neg hlog]

lemma isFinite_pack {sign : UnpackedFloat.Sign} {m : Nat} {e : Int} (hm : 0 < m)
    (h : e ≤ 971) : (pack (.finite sign m e hm)).isFinite = true := by
  apply (isFinite_unpack _).mpr
  show UnpackedFloat.unpackExponent (UnpackedFloat.pack .binary64 _) ≠ _
  rw [pack_finite, if_neg (by omega), UnpackedFloat.unpackExponent_packComponents]
  split
  · intro heq
    have hones : (-1#_ : BitVec Format.binary64.exponentBits).toNat = 2047 := by decide
    have := congrArg BitVec.toNat heq
    rw [hones, BitVec.toNat_ofNat, Nat.mod_eq_of_lt (by show _ < 2 ^ 11; omega)] at this
    omega
  · decide

lemma isNaN_of_isFinite {u : UnpackedFloat} (h : u.isFinite = true) : u.isNaN = false := by
  cases u with
  | notANumber => cases h
  | _ => rfl

lemma isNaN_pack (u : UnpackedFloat) : (pack u).isNaN = u.isNaN := by
  cases u with
  | notANumber => decide
  | infinity sign => cases sign <;> decide
  | zero sign => cases sign <;> decide
  | finite sign m e hm =>
    show _ = false
    by_cases h : e ≤ 971
    · exact isNaN_of_isFinite (isFinite_pack hm h)
    · unfold pack Float.Model.isNaN Float.Model.unpack
      simp only [pack_finite, if_pos (Int.lt_of_not_ge h)]
      clear h
      cases sign <;> decide

/-- What is unpacked has at most 53 bits, and no exponent below that of the subnormals. -/
lemma unpack_finite {bits : BitVec Format.binary64.numBits} {sign : UnpackedFloat.Sign} {m : Nat}
    {e : Int} {hm : 0 < m} (h : UnpackedFloat.unpack .binary64 bits = .finite sign m e hm) :
    -1074 ≤ e ∧ m < 2 ^ 53 := by
  have hbias : (Format.binary64.exponentBias : Int) + Format.binary64.mantissaBitsWithoutImplicit =
      1075 := by decide
  unfold UnpackedFloat.unpack at h
  simp only [hbias] at h
  split at h
  · split at h <;> cases h
  · split at h
    · split at h
      · cases h
      · injection h with _ hmantissa hexponent
        have := (UnpackedFloat.unpackMantissa bits).isLt
        change _ < 2 ^ 52 at this
        omega
    · next hnormal =>
      injection h with _ hmantissa hexponent
      have hpositive : (UnpackedFloat.unpackExponent bits).toNat ≠ 0 := by
        intro hzero
        exact hnormal (BitVec.eq_of_toNat_eq (by rw [hzero]; rfl))
      have := (1#1 ++ UnpackedFloat.unpackMantissa bits).isLt
      change _ < 2 ^ 53 at this
      omega

/-! ## Sums and products -/

lemma isNaN_roundWithAccuracy {sign : UnpackedFloat.Sign} {m : Nat} {e : Int}
    {accuracy : UnpackedFloat.Accuracy} :
    (UnpackedFloat.roundWithAccuracy .binary64 sign m e accuracy).isNaN = false := by
  unfold UnpackedFloat.roundWithAccuracy
  simp only
  split <;> rfl

lemma isNaN_normalize {m e : Int} {sign : UnpackedFloat.Sign} :
    (UnpackedFloat.normalize .binary64 m e sign).isNaN = false := by
  unfold UnpackedFloat.normalize
  split
  · exact isNaN_roundWithAccuracy
  · rfl
  · exact isNaN_roundWithAccuracy

/-- Only infinities of two signs have no sum. -/
lemma isNaN_add {a b : Float} (ha : a.isFinite = true) (hb : b.isNaN = false) :
    (a + b).isNaN = false := by
  change (pack (UnpackedFloat.add _ a.toModel.unpack b.toModel.unpack)).isNaN = false
  change a.toModel.unpack.isFinite = true at ha
  change b.toModel.unpack.isNaN = false at hb
  rw [isNaN_pack]
  generalize a.toModel.unpack = u at ha
  generalize b.toModel.unpack = v at hb
  unfold UnpackedFloat.add
  cases u with
  | notANumber => cases ha
  | infinity => cases ha
  | zero =>
    cases v with
    | notANumber => cases hb
    | infinity => rfl
    | zero =>
      simp only
      split <;> rfl
    | finite => rfl
  | finite =>
    cases v with
    | notANumber => cases hb
    | infinity => rfl
    | zero => rfl
    | finite => exact isNaN_normalize

/-- Only a zero and an infinity have no product. -/
lemma isNaN_mul {a b : Float} (ha : a.isFinite = true) (hb : b.isFinite = true) :
    (a * b).isNaN = false := by
  change (pack (UnpackedFloat.mul _ a.toModel.unpack b.toModel.unpack)).isNaN = false
  change a.toModel.unpack.isFinite = true at ha
  change b.toModel.unpack.isFinite = true at hb
  rw [isNaN_pack]
  generalize a.toModel.unpack = u at ha
  generalize b.toModel.unpack = v at hb
  unfold UnpackedFloat.mul
  cases u with
  | notANumber => cases ha
  | infinity => cases ha
  | zero =>
    cases v with
    | notANumber => cases hb
    | infinity => cases hb
    | zero => rfl
    | finite => rfl
  | finite =>
    cases v with
    | notANumber => cases hb
    | infinity => cases hb
    | zero => rfl
    | finite => exact isNaN_roundWithAccuracy

/-! ## The distance to one -/

lemma shiftRight_le (em : UnpackedFloat.ExtendedMantissa) (n : Nat) :
    (em >>> n).mantissa ≤ em.mantissa := by
  induction n with
  | zero => exact Nat.le_refl _
  | succ n ih =>
    change (em >>> n).mantissa / 2 ≤ _
    omega

lemma roundedMantissa_le (em : UnpackedFloat.ExtendedMantissa) :
    em.roundedMantissa ≤ em.mantissa + 1 := by
  obtain ⟨m, round, sticky⟩ := em
  cases round <;> cases sticky <;>
    simp only [UnpackedFloat.ExtendedMantissa.roundedMantissa,
      UnpackedFloat.ExtendedMantissa.accuracy, UnpackedFloat.Accuracy.roundToNearestEven] <;>
    omega

lemma targetExponent_eq (m : Nat) (e : Int) :
    Format.binary64.targetExponent (totalExponent m e) = max (m.log2 + 1 + e - 53) (-1074) := by
  have hbits : Format.binary64.mantissaBits = 53 := by decide
  have hmin : Format.binary64.minExponent = -1074 := by decide
  rw [Format.targetExponent, totalExponent, hbits, hmin]
  rfl

lemma log2_le {m k : Nat} (h : m ≤ 2 ^ k + 1) (hk : 1 < k) : m.log2 ≤ k := by
  by_cases hm : m = 0
  · simp [hm]
  · have hpow : 2 ^ 2 ≤ 2 ^ k := Nat.pow_le_pow_right (by decide) hk
    have : m.log2 < k + 1 := (Nat.log2_lt hm).mpr (by rw [Nat.pow_succ]; omega)
    omega

/-- The number `m * 2 ^ e` is at most one, with an exponent as it has in that range. -/
structure AtMostOne (m : Nat) (e : Int) : Prop where
  low : -1074 ≤ e
  high : e ≤ -52
  le : m ≤ 2 ^ (-e).toNat

lemma isFinite_roundWithAccuracy {sign : UnpackedFloat.Sign} {m : Nat} {e : Int}
    (unit : AtMostOne m e) :
    (pack (UnpackedFloat.roundWithAccuracy .binary64 sign m e .exact)).isFinite = true := by
  obtain ⟨hlow, hhigh, hle⟩ := unit
  unfold UnpackedFloat.roundWithAccuracy UnpackedFloat.shiftToTargetExponent
    UnpackedFloat.shiftToExponent
  simp only [targetExponent_eq]
  split
  · cases sign <;> decide
  · -- neither shift nor rounding brings the mantissa above `2 ^ (-e) + 1`
    apply isFinite_pack
    have hfirst : m.log2 ≤ (-e).toNat := log2_le (by omega) (by omega)
    generalize hshift : (max ((m.log2 : Int) + 1 + e - 53) (-1074) - e).toNat = shift
    have hshifted : (UnpackedFloat.ExtendedMantissa.ofMantissaAndAccuracy m .exact >>>
        shift).mantissa ≤ m := shiftRight_le _ shift
    generalize UnpackedFloat.ExtendedMantissa.ofMantissaAndAccuracy m .exact >>> shift = em
      at hshifted
    have hrounded := roundedMantissa_le em
    have hsecond : em.roundedMantissa.log2 ≤ (-e).toNat := log2_le (by omega) (by omega)
    omega

lemma isFinite_round {sign : UnpackedFloat.Sign} {m : Nat} {e : Int} (unit : AtMostOne m e) :
    (pack (UnpackedFloat.round .binary64 sign m e)).isFinite = true := by
  obtain ⟨hlow, hhigh, hle⟩ := unit
  unfold UnpackedFloat.round UnpackedFloat.decreaseExponent
  simp only [targetExponent_eq]
  generalize htarget : max ((m.log2 : Int) + 1 + e - 53) (-1074) = target
  apply isFinite_roundWithAccuracy
  refine ⟨by omega, by omega, ?_⟩
  have hexponent : (-(e - ((e - target).toNat : Int))).toNat =
      (-e).toNat + (e - target).toNat := by omega
  rw [Nat.shiftLeft_eq, hexponent, Nat.pow_add]
  exact Nat.mul_le_mul_right _ hle

lemma isFinite_normalize {m e : Int} {sign : UnpackedFloat.Sign} (hm : 0 ≤ m)
    (unit : AtMostOne m.toNat e) :
    (pack (UnpackedFloat.normalize .binary64 m e sign)).isFinite = true := by
  unfold UnpackedFloat.normalize
  split
  · next hnegative => exact absurd (Int.compare_eq_lt.mp hnegative) (by omega)
  · cases sign <;> decide
  · exact isFinite_round unit

lemma unpack_zero : (0 : Float).toModel.unpack = .zero .positive := rfl

lemma unpack_one : (1 : Float).toModel.unpack = .finite .positive (2 ^ 52) (-52) (by decide) := rfl

lemma lt_iff {a b : Float} : a < b ↔ a.toModel.unpack.lt b.toModel.unpack = true := by
  change decide (a.toModel < b.toModel) = true ↔ _
  rw [decide_eq_true_iff]
  rfl

lemma le_iff {a b : Float} : a ≤ b ↔ a.toModel.unpack.le b.toModel.unpack = true := by
  change decide (a.toModel ≤ b.toModel) = true ↔ _
  rw [decide_eq_true_iff]
  rfl

/-- A finite float between 0 and 1. -/
structure InUnit (x : Float) : Prop where
  finite : x.isFinite = true
  low : ¬ x < 0
  high : ¬ 1 < x

lemma InUnit.number {x : Float} (unit : InUnit x) : x.isNaN = false :=
  isNaN_of_isFinite (u := x.toModel.unpack) unit.finite

/-- What is not above one has an exponent of at most -52. -/
lemma atMostOne_of_not_lt {m : Nat} {e : Int} (hlow : -1074 ≤ e) (hm : m < 2 ^ 53)
    (h : ¬ some ((compare (-52) e).then (compare (2 ^ 52) m)) = some .lt) : AtMostOne m e := by
  rcases Int.lt_trichotomy e (-52) with hlt | rfl | hgt
  · have : 2 ^ 53 ≤ 2 ^ (-e).toNat := Nat.pow_le_pow_right (by decide) (by omega)
    exact ⟨hlow, by omega, by omega⟩
  · refine ⟨hlow, by omega, ?_⟩
    rw [show compare (-52 : Int) (-52) = .eq from by decide, Ordering.eq_then] at h
    by_contra hlarge
    exact h (congrArg some (Nat.compare_eq_lt.mpr (Nat.lt_of_not_ge hlarge)))
  · rw [Int.compare_eq_lt.mpr hgt] at h
    exact absurd rfl h

/-- The distance to one does not overflow. -/
lemma isFinite_one_sub {x : Float} (unit : InUnit x) : (1.0 - x).isFinite = true := by
  obtain ⟨hx, hlow, hhigh⟩ := unit
  change (pack (UnpackedFloat.sub _ (1 : Float).toModel.unpack x.toModel.unpack)).isFinite = true
  change x.toModel.unpack.isFinite = true at hx
  rw [lt_iff, unpack_zero] at hlow
  rw [lt_iff, unpack_one] at hhigh
  rw [unpack_one]
  have hshape : ∀ sign m e hm, x.toModel.unpack = .finite sign m e hm → -1074 ≤ e ∧ m < 2 ^ 53 :=
    fun _ _ _ _ => unpack_finite
  generalize x.toModel.unpack = u at hx hlow hhigh hshape ⊢
  cases u with
  | notANumber => cases hx
  | infinity => cases hx
  | zero sign => exact isFinite_pack (by decide) (by decide)
  | finite sign m e hm =>
    obtain ⟨hmin, hmax⟩ := hshape sign m e hm rfl
    cases sign with
    | negative => exact absurd rfl hlow
    | positive =>
      have below : AtMostOne m e := atMostOne_of_not_lt hmin hmax fun h => hhigh (beq_iff_eq.mpr h)
      obtain ⟨-, hexponent, hle⟩ := below
      have hone : (2 ^ 52 : Nat) <<< (-52 - e).toNat = 2 ^ (-e).toNat := by
        rw [Nat.shiftLeft_eq, ← Nat.pow_add]
        congr 1
        omega
      have hsame : m <<< (e - e).toNat = m := by
        rw [Int.sub_self]
        rfl
      unfold UnpackedFloat.sub UnpackedFloat.decreaseExponent
      simp only [Int.min_eq_right hexponent]
      rw [hsame, hone]
      change (pack (UnpackedFloat.normalize _ (((2 ^ (-e).toNat : Nat) : Int) - (m : Int)) e
        .positive)).isFinite = true
      exact isFinite_normalize (by omega) ⟨hmin, hexponent, by omega⟩

/-- What is not below zero is a number. -/
lemma isNaN_of_zero_le {x : Float} (h : 0.0 ≤ x) : x.isNaN = false := by
  rw [le_iff] at h
  change x.toModel.unpack.isNaN = false
  have hzero : (0.0 : Float).toModel.unpack = .zero .positive := rfl
  rw [hzero] at h
  generalize x.toModel.unpack = u at h
  cases u with
  | notANumber => cases h
  | _ => rfl

/-! ## The order of numbers -/

/-- Where a number stands among the others: first by its kind and sign, then by its exponent,
then by its mantissa. -/
def standing : UnpackedFloat → Int × Int × Int
  | .infinity .negative => (-2, 0, 0)
  | .finite .negative m e _ => (-1, -e, -m)
  | .notANumber | .zero _ => (0, 0, 0)
  | .finite .positive m e _ => (1, e, m)
  | .infinity .positive => (2, 0, 0)

/-- Standings one after the other, each by its parts from the first on. -/
def compareStandings (a b : Int × Int × Int) : Ordering :=
  (compare a.1 b.1).then ((compare a.2.1 b.2.1).then (compare a.2.2 b.2.2))

lemma compareStandings_eq_lt {a b : Int × Int × Int} : compareStandings a b = .lt ↔
    a.1 < b.1 ∨ a.1 = b.1 ∧ (a.2.1 < b.2.1 ∨ a.2.1 = b.2.1 ∧ a.2.2 < b.2.2) := by
  simp only [compareStandings, Ordering.then_eq_lt, Int.compare_eq_lt, Int.compare_eq_eq]

lemma compareStandings_eq_gt {a b : Int × Int × Int} : compareStandings a b = .gt ↔
    b.1 < a.1 ∨ a.1 = b.1 ∧ (b.2.1 < a.2.1 ∨ a.2.1 = b.2.1 ∧ b.2.2 < a.2.2) := by
  simp only [compareStandings, Ordering.then_eq_gt, Int.compare_eq_gt, Int.compare_eq_eq]

lemma compareStandings_eq_eq {a b : Int × Int × Int} : compareStandings a b = .eq ↔ a = b := by
  simp only [compareStandings, Ordering.then_eq_eq, Int.compare_eq_eq, Prod.ext_iff]

lemma compare_neg (a b : Int) : compare (-a) (-b) = (compare a b).swap := by
  rcases Int.lt_trichotomy a b with h | rfl | h
  · rw [Int.compare_eq_lt.mpr h, Int.compare_eq_gt.mpr (by omega)]
    rfl
  · simp
  · rw [Int.compare_eq_gt.mpr h, Int.compare_eq_lt.mpr (by omega)]
    rfl

lemma compare_natCast (m n : Nat) : compare (m : Int) (n : Int) = compare m n := by
  rcases Nat.lt_trichotomy m n with h | rfl | h
  · rw [Int.compare_eq_lt.mpr (by omega), Nat.compare_eq_lt.mpr h]
  · rw [Std.compare_self, Std.compare_self]
  · rw [Int.compare_eq_gt.mpr (by omega), Nat.compare_eq_gt.mpr h]

/-- Numbers are compared by their standings. -/
lemma compare_eq {u v : UnpackedFloat} (hu : u.isNaN = false) (hv : v.isNaN = false) :
    u.compare v = some (compareStandings (standing u) (standing v)) := by
  cases u with
  | notANumber => cases hu
  | infinity s =>
    cases v with
    | notANumber => cases hv
    | infinity t => cases s <;> cases t <;> rfl
    | zero t => cases s <;> rfl
    | finite t m e hm => cases s <;> cases t <;> rfl
  | zero s =>
    cases v with
    | notANumber => cases hv
    | infinity t => cases t <;> rfl
    | zero t => rfl
    | finite t m e hm => cases t <;> rfl
  | finite s m e hm =>
    cases v with
    | notANumber => cases hv
    | infinity t => cases s <;> cases t <;> rfl
    | zero t => cases s <;> rfl
    | finite t n f hn =>
      cases s <;> cases t
      case negative.negative =>
        simp only [UnpackedFloat.compare, compareStandings, standing, compare_neg,
          compare_natCast, Ordering.swap_then, Std.compare_self, Ordering.eq_then]
      case positive.positive =>
        simp only [UnpackedFloat.compare, compareStandings, standing, compare_natCast,
          Std.compare_self, Ordering.eq_then]
      all_goals rfl

lemma isNaN_of_compare {u v : UnpackedFloat} {order : Ordering}
    (h : u.compare v = some order) : u.isNaN = false ∧ v.isNaN = false := by
  cases u <;> cases v <;> first | exact ⟨rfl, rfl⟩ | cases h

lemma lt_iff_standing {x y : Float} (hx : x.isNaN = false) (hy : y.isNaN = false) :
    x < y ↔ compareStandings (standing x.toModel.unpack) (standing y.toModel.unpack) = .lt := by
  rw [lt_iff, UnpackedFloat.lt, compare_eq hx hy, beq_iff_eq, Option.some.injEq]

lemma le_iff_standing {x y : Float} (hx : x.isNaN = false) (hy : y.isNaN = false) :
    x ≤ y ↔ compareStandings (standing x.toModel.unpack) (standing y.toModel.unpack) ≠ .gt := by
  rw [le_iff, UnpackedFloat.le, compare_eq hx hy, Option.any_some, Ordering.isLE_iff_ne_gt]

lemma isNaN_of_le {x y : Float} (h : x ≤ y) : x.isNaN = false ∧ y.isNaN = false := by
  rw [le_iff, UnpackedFloat.le, Option.any_eq_true] at h
  obtain ⟨order, horder, -⟩ := h
  exact isNaN_of_compare horder

lemma le_refl {x : Float} (h : x.isNaN = false) : x ≤ x := by
  rw [le_iff_standing h h, compareStandings_eq_eq.mpr rfl]
  decide

lemma le_trans {x y z : Float} (hxy : x ≤ y) (hyz : y ≤ z) : x ≤ z := by
  obtain ⟨hx, hy⟩ := isNaN_of_le hxy
  obtain ⟨-, hz⟩ := isNaN_of_le hyz
  rw [le_iff_standing hx hy, Ne, compareStandings_eq_gt] at hxy
  rw [le_iff_standing hy hz, Ne, compareStandings_eq_gt] at hyz
  rw [le_iff_standing hx hz, Ne, compareStandings_eq_gt]
  omega

lemma not_lt_of_le {x y : Float} (h : x ≤ y) : ¬ y < x := by
  obtain ⟨hx, hy⟩ := isNaN_of_le h
  rw [le_iff_standing hx hy, Ne, compareStandings_eq_gt] at h
  rw [lt_iff_standing hy hx, compareStandings_eq_lt]
  omega

lemma le_of_not_lt {x y : Float} (hx : x.isNaN = false) (hy : y.isNaN = false)
    (h : ¬ y < x) : x ≤ y := by
  rw [lt_iff_standing hy hx, compareStandings_eq_lt] at h
  rw [le_iff_standing hx hy, Ne, compareStandings_eq_gt]
  omega

lemma beq_self {x : Float} (h : x.isNaN = false) : (x == x) = true := by
  change x.toModel.unpack.beq x.toModel.unpack = true
  rw [UnpackedFloat.beq, compare_eq h h, compareStandings_eq_eq.mpr rfl]
  rfl

/-- A zero may lose its sign: what is not above the number is not above what is stored of it. -/
lemma le_unsignedZero {x y : Float} (h : x ≤ y) : x ≤ Decimal.unsignedZero y := by
  unfold Decimal.unsignedZero
  split
  · next hzero =>
    refine le_trans h ?_
    obtain ⟨-, hy⟩ := isNaN_of_le h
    change y.toModel.unpack.beq (.zero .positive) = true at hzero
    rw [UnpackedFloat.beq, compare_eq hy rfl, beq_iff_eq, Option.some.injEq,
      compareStandings_eq_eq] at hzero
    rw [le_iff_standing hy (by decide), hzero]
    decide
  · exact h

/-! ## Zeros -/

/-- A float that is a zero of either sign. -/
def IsZero (x : Float) : Prop := ∃ sign, x.toModel.unpack = .zero sign

lemma unpack_pack_zero (sign : UnpackedFloat.Sign) :
    (pack (.zero sign)).unpack = .zero sign := by
  cases sign <;> rfl

lemma isZero_mul {x y : Float} (hx : IsZero x) (hy : y.isFinite = true) : IsZero (x * y) := by
  obtain ⟨sign, hx⟩ := hx
  change y.toModel.unpack.isFinite = true at hy
  change ∃ s, (pack (UnpackedFloat.mul _ x.toModel.unpack y.toModel.unpack)).unpack = .zero s
  rw [hx]
  generalize y.toModel.unpack = v at hy
  cases v with
  | notANumber => cases hy
  | infinity => cases hy
  | zero t => exact ⟨_, unpack_pack_zero _⟩
  | finite t m e hm => exact ⟨_, unpack_pack_zero _⟩

lemma eq_of_toModel {x y : Float} (h : x.toModel = y.toModel) : x = y := by
  obtain ⟨a⟩ := x
  obtain ⟨b⟩ := y
  exact congrArg _ h

/-- Which zero is added makes no difference, unless it is added to a zero. -/
lemma add_isZero {x y z : Float} (hx : x.isFinite = true) (hy : IsZero y) (hz : IsZero z) :
    x + y = x + z ∨ IsZero (x + y) ∧ IsZero (x + z) := by
  obtain ⟨s, hy⟩ := hy
  obtain ⟨t, hz⟩ := hz
  change x.toModel.unpack.isFinite = true at hx
  have hsum : ∀ w : Float, (x + w).toModel =
      pack (UnpackedFloat.add _ x.toModel.unpack w.toModel.unpack) := fun w => rfl
  simp only [IsZero, hsum, hy, hz]
  cases hu : x.toModel.unpack with
  | notANumber => rw [hu] at hx; cases hx
  | infinity => rw [hu] at hx; cases hx
  | zero r => right; cases r <;> cases s <;> cases t <;> exact ⟨⟨_, rfl⟩, ⟨_, rfl⟩⟩
  | finite r m e hm =>
    left
    apply eq_of_toModel
    rw [hsum, hsum, hu, hy, hz]
    rfl

lemma le_of_isZero {x y : Float} (hx : IsZero x) (hy : IsZero y) : x ≤ y := by
  obtain ⟨s, hx⟩ := hx
  obtain ⟨t, hy⟩ := hy
  rw [le_iff, hx, hy]
  rfl

lemma inUnit_of_isZero {x : Float} (h : IsZero x) : InUnit x := by
  obtain ⟨sign, h⟩ := h
  refine ⟨?_, ?_, ?_⟩
  · change x.toModel.unpack.isFinite = true
    rw [h]
    rfl
  · rw [lt_iff, h]
    cases sign <;> decide
  · rw [lt_iff, h]
    cases sign <;> decide

/-! ## Differences that vanish -/

/-- A finite float less itself is a zero. -/
lemma unpack_sub_self {x : Float} (h : x.isFinite = true) :
    ∃ sign, (x - x).toModel.unpack = .zero sign := by
  change x.toModel.unpack.isFinite = true at h
  change ∃ sign, (pack (UnpackedFloat.sub _ x.toModel.unpack x.toModel.unpack)).unpack =
    .zero sign
  generalize x.toModel.unpack = u at h
  cases u with
  | notANumber => cases h
  | infinity => cases h
  | zero sign => cases sign <;> exact ⟨.positive, rfl⟩
  | finite sign m e hm =>
    unfold UnpackedFloat.sub UnpackedFloat.normalize
    simp only [Int.sub_self, Std.compare_self]
    exact ⟨.positive, rfl⟩

/-- A zero less the zero without a sign is a zero. -/
lemma unpack_sub_zero {x : Float} (h : (x == 0.0) = true) :
    ∃ sign, (x - 0.0).toModel.unpack = .zero sign := by
  change x.toModel.unpack.beq (.zero .positive) = true at h
  change ∃ sign, (pack (UnpackedFloat.sub _ x.toModel.unpack (.zero .positive))).unpack =
    .zero sign
  generalize x.toModel.unpack = u at h
  cases u with
  | notANumber => cases h
  | infinity sign => cases sign <;> cases h
  | finite sign => cases sign <;> cases h
  | zero sign => cases sign <;> exact ⟨_, rfl⟩

end Binary64

open Binary64

lemma inUnit_clampUnit {x : Float} (h : x.isFinite = true) : InUnit (clampUnit x) := by
  unfold clampUnit
  split
  · exact ⟨by decide, by decide, by decide⟩
  · next hlow =>
    split
    · exact ⟨by decide, by decide, by decide⟩
    · next hhigh => exact ⟨h, hlow, hhigh⟩

/-- What is cut off to between 0 and 1 is finite, unless it is no number. -/
lemma isFinite_clampUnit {x : Float} (h : (clampUnit x).isNaN = false) :
    (clampUnit x).isFinite = true := by
  unfold clampUnit at h ⊢
  split
  · decide
  · next hlow =>
    split
    · decide
    · next hhigh =>
      rw [if_neg hlow, if_neg hhigh] at h
      rw [lt_iff, unpack_zero] at hlow
      rw [lt_iff, unpack_one] at hhigh
      change x.toModel.unpack.isNaN = false at h
      change x.toModel.unpack.isFinite = true
      generalize x.toModel.unpack = u at h hlow hhigh ⊢
      cases u with
      | notANumber => cases h
      | infinity sign =>
        cases sign with
        | positive => exact absurd rfl hhigh
        | negative => exact absurd rfl hlow
      | zero => rfl
      | finite => rfl

/-- What is cut off to between 0 and 1 lies there, unless it is no number. -/
lemma inUnit_of_clampUnit {x : Float} (h : (clampUnit x).isNaN = false) :
    InUnit (clampUnit x) := by
  refine ⟨isFinite_clampUnit h, ?_, ?_⟩
  · unfold clampUnit
    split
    · decide
    · next hlow =>
      split
      · decide
      · exact hlow
  · unfold clampUnit
    split
    · decide
    · split
      · decide
      · next hhigh => exact hhigh

lemma clampUnit_of_inUnit {x : Float} (unit : InUnit x) : clampUnit x = x := by
  rw [clampUnit, if_neg unit.low, if_neg unit.high]

lemma inUnit_unsignedZero {x : Float} (unit : InUnit x) : InUnit (Decimal.unsignedZero x) := by
  unfold Decimal.unsignedZero
  split
  · exact ⟨by decide, by decide, by decide⟩
  · exact unit

lemma isNaN_clampUnit {x : Float} (h : x.isNaN = false) : (clampUnit x).isNaN = false := by
  unfold clampUnit
  split
  · decide
  · split
    · decide
    · exact h

lemma isNaN_largerOf {a b : Float} (h : b.isNaN = false) : (largerOf a b).isNaN = false := by
  unfold largerOf
  split
  · exact h
  · next ha =>
    split
    · simpa using ha
    · split
      · exact h
      · simpa using ha

namespace ConfidencePolicy

lemma inUnit_base (frequency : Nat) : InUnit (base frequency) := by
  unfold base
  simp only
  split
  · next h => exact inUnit_clampUnit h
  · exact ⟨by decide, by decide, by decide⟩

/-- A score is a number when the share that a recent sighting gains is finite. -/
theorem isNaN_score {policy : ConfidencePolicy} (finite : policy.bonus.isFinite = true)
    (frequency : Nat) (lastSeen now : Int) :
    (policy.score frequency lastSeen now).isNaN = false := by
  have unit := inUnit_base frequency
  have hgain : (if policy.isRecent lastSeen now then policy.bonus * (1.0 - base frequency)
      else 0.0).isNaN = false := by
    split
    · exact isNaN_mul finite (isFinite_one_sub unit)
    · decide
  exact isNaN_clampUnit (isNaN_add unit.finite hgain)

lemma isNaN_corroborate {previous computed : Float} (h : computed.isNaN = false) :
    (corroborate previous computed).isNaN = false :=
  isNaN_clampUnit (isNaN_largerOf h)

/-- What is stored already is not given up for less. -/
lemma corroborate_of_le {previous computed : Float} (unit : InUnit previous)
    (h : computed ≤ previous) : corroborate previous computed = previous := by
  obtain ⟨hcomputed, hprevious⟩ := isNaN_of_le h
  have hlarger : largerOf previous computed = previous := by
    simp only [largerOf, hprevious, hcomputed, not_lt_of_le h, Bool.false_eq_true, if_false]
  rw [corroborate, hlarger, clampUnit_of_inUnit unit]

lemma corroborate_of_lt {previous computed : Float} (hprevious : previous.isNaN = false)
    (unit : InUnit computed) (h : previous < computed) :
    corroborate previous computed = computed := by
  have hlarger : largerOf previous computed = computed := by
    simp only [largerOf, hprevious, unit.number, h, Bool.false_eq_true, if_false, if_true]
  rw [corroborate, hlarger, clampUnit_of_inUnit unit]

/-- What is stored after a pattern was seen again is at least what was computed. -/
lemma le_corroborate {previous computed : Float} (hprevious : InUnit previous)
    (hcomputed : InUnit computed) :
    InUnit (corroborate previous computed) ∧ computed ≤ corroborate previous computed := by
  by_cases h : previous < computed
  · rw [corroborate_of_lt hprevious.number hcomputed h]
    exact ⟨hcomputed, le_refl hcomputed.number⟩
  · have hle : computed ≤ previous := le_of_not_lt hcomputed.number hprevious.number h
    rw [corroborate_of_le hprevious hle]
    exact ⟨hprevious, hle⟩

/-- From the time of the last sighting on, a score never grows. -/
def Fades (policy : ConfidencePolicy) : Prop :=
  ∀ (frequency : Nat) (lastSeen now later : Int), lastSeen ≤ now → now ≤ later →
    policy.score frequency lastSeen later ≤ policy.score frequency lastSeen now

lemma Fades.inUnit_score {policy : ConfidencePolicy} (fades : policy.Fades) (frequency : Nat)
    {lastSeen now : Int} (h : lastSeen ≤ now) : InUnit (policy.score frequency lastSeen now) :=
  inUnit_of_clampUnit (isNaN_of_le (fades frequency lastSeen now now h (Int.le_refl now))).1

/-- Without a bonus for recent sightings a score never changes. -/
lemma fades_of_no_bonus {policy : ConfidencePolicy} (h : IsZero policy.bonus) : policy.Fades := by
  intro frequency lastSeen now later _ _
  have unit := inUnit_base frequency
  have hgain : ∀ time, IsZero (if policy.isRecent lastSeen time then
      policy.bonus * (1.0 - base frequency) else 0.0) := by
    intro time
    split
    · exact isZero_mul h (isFinite_one_sub unit)
    · exact ⟨.positive, rfl⟩
  have finite : policy.bonus.isFinite = true := (inUnit_of_isZero h).finite
  rcases add_isZero unit.finite (hgain later) (hgain now) with heq | ⟨hlater, hnow⟩
  · have hscore : policy.score frequency lastSeen later = policy.score frequency lastSeen now :=
      congrArg clampUnit heq
    rw [hscore]
    exact le_refl (isNaN_score finite frequency lastSeen now)
  · have hclamped : ∀ {x : Float}, IsZero x → clampUnit x = x := fun hx =>
      clampUnit_of_inUnit (inUnit_of_isZero hx)
    unfold score
    simp only
    rw [hclamped hlater, hclamped hnow]
    exact le_of_isZero hlater hnow
end ConfidencePolicy

end HouseStyle
