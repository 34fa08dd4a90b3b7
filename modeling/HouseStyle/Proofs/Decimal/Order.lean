import HouseStyle.Proofs.Decimal.Rounding

/-!
# Ranks follow the order of numbers

The rank of a number is read off its bits, and numbers are compared by their parts. The parts
of a stored number are tied together: only the numbers with the lowest exponent have a short
mantissa. So the exponent and the mantissa make one whole number, which grows with the number.
-/

namespace HouseStyle.Binary64

open Float.Model

/-- The rank of a number by its parts. -/
def place : UnpackedFloat → Int
  | .infinity .negative => -(2047 * 2 ^ 52)
  | .finite .negative m e _ => -((e + 1074) * 2 ^ 52 + m)
  | .notANumber | .zero _ => 0
  | .finite .positive m e _ => (e + 1074) * 2 ^ 52 + m
  | .infinity .positive => 2047 * 2 ^ 52

/-- Parts as they are stored: a mantissa of fewer than 53 bits has the lowest exponent. -/
structure Graded (m : Nat) (e : Int) : Prop where
  low : -1074 ≤ e
  high : e ≤ 971
  short : m < 2 ^ 53
  full : -1074 < e → 2 ^ 52 ≤ m

/-- What a sign, an exponent of eleven bits and a mantissa of 52 bits stand for. -/
inductive Unpacks (sign : UnpackedFloat.Sign) (exponent mantissa : Nat) : UnpackedFloat → Prop where
  | infinity (ones : exponent = 2047) (bare : mantissa = 0) :
    Unpacks sign exponent mantissa (.infinity sign)
  | notANumber (ones : exponent = 2047) : Unpacks sign exponent mantissa .notANumber
  | zero (lowest : exponent = 0) (bare : mantissa = 0) :
    Unpacks sign exponent mantissa (.zero sign)
  | short (lowest : exponent = 0) (h : 0 < mantissa) :
    Unpacks sign exponent mantissa (.finite sign mantissa (-1074) h)
  | full (low : 0 < exponent) (high : exponent < 2047) (h : 0 < 2 ^ 52 + mantissa) :
    Unpacks sign exponent mantissa (.finite sign (2 ^ 52 + mantissa) (exponent - 1075) h)

lemma unpacks (bits : BitVec Format.binary64.numBits) :
    Unpacks (.ofBitVec (UnpackedFloat.unpackSign bits)) (UnpackedFloat.unpackExponent bits).toNat
      (UnpackedFloat.unpackMantissa bits).toNat (UnpackedFloat.unpack .binary64 bits) := by
  have hbias : (Format.binary64.exponentBias : Int) + Format.binary64.mantissaBitsWithoutImplicit =
      1075 := by decide
  have hexponent := (UnpackedFloat.unpackExponent bits).isLt
  change _ < 2 ^ 11 at hexponent
  unfold UnpackedFloat.unpack
  simp only [hbias]
  split
  · next hones =>
    have hones' : (UnpackedFloat.unpackExponent bits).toNat = 2047 := by rw [hones]; rfl
    split
    · next hbare => exact .infinity hones' (by rw [hbare]; rfl)
    · exact .notANumber hones'
  · next hfinite =>
    split
    · next hlowest =>
      have hlowest' : (UnpackedFloat.unpackExponent bits).toNat = 0 := by rw [hlowest]; rfl
      split
      · next hbare => exact .zero hlowest' (by rw [hbare]; rfl)
      · rw [hlowest']
        exact .short rfl _
    · next hnormal =>
      have hlow : (UnpackedFloat.unpackExponent bits).toNat ≠ 0 := fun hzero =>
        hnormal (BitVec.eq_of_toNat_eq (by rw [hzero]; rfl))
      have hhigh : (UnpackedFloat.unpackExponent bits).toNat ≠ 2047 := fun hones =>
        hfinite (BitVec.eq_of_toNat_eq (by rw [hones]; rfl))
      have hfull : (1#1 ++ UnpackedFloat.unpackMantissa bits).toNat =
          2 ^ 52 + (UnpackedFloat.unpackMantissa bits).toNat := by
        rw [toNat_append]
        rfl
      simp only [hfull]
      exact .full (by omega) (by omega) _

lemma graded_unpack {bits : BitVec Format.binary64.numBits} {sign : UnpackedFloat.Sign} {m : Nat}
    {e : Int} {hm : 0 < m} (h : UnpackedFloat.unpack .binary64 bits = .finite sign m e hm) :
    Graded m e := by
  have hmantissa := (UnpackedFloat.unpackMantissa bits).isLt
  change _ < 2 ^ 52 at hmantissa
  have hparts := unpacks bits
  rw [h] at hparts
  cases hparts with
  | short lowest h => exact ⟨by omega, by omega, by omega, by omega⟩
  | full low high h => exact ⟨by omega, by omega, by omega, fun _ => by omega⟩

/-- A sign, eleven bits of exponent and 52 bits of mantissa. -/
lemma toNat_bits (bits : BitVec Format.binary64.numBits) :
    bits.toNat = (UnpackedFloat.unpackSign bits).toNat * 2 ^ 63 +
      (UnpackedFloat.unpackExponent bits).toNat * 2 ^ 52 +
      (UnpackedFloat.unpackMantissa bits).toNat := by
  have hparts := UnpackedFloat.packComponents_unpackSign_unpackExponent_unpackMantissa bits
  rw [UnpackedFloat.packComponents, UnpackedFloat.Sign.toBitVec_ofBitVec] at hparts
  have hbits := congrArg BitVec.toNat hparts
  rw [toNat_append, toNat_append] at hbits
  change ((UnpackedFloat.unpackSign bits).toNat * 2 ^ 11 +
    (UnpackedFloat.unpackExponent bits).toNat) * 2 ^ 52 +
    (UnpackedFloat.unpackMantissa bits).toNat = _ at hbits
  omega

lemma sign_cases (bits : BitVec Format.binary64.numBits) :
    (UnpackedFloat.unpackSign bits).toNat = 0 ∧
      UnpackedFloat.Sign.ofBitVec (UnpackedFloat.unpackSign bits) = .positive ∨
    (UnpackedFloat.unpackSign bits).toNat = 1 ∧
      UnpackedFloat.Sign.ofBitVec (UnpackedFloat.unpackSign bits) = .negative := by
  have hsign : (UnpackedFloat.unpackSign bits).toNat < 2 := (UnpackedFloat.unpackSign bits).isLt
  rcases Nat.lt_or_eq_of_le (Nat.le_of_lt_succ hsign) with hzero | hone
  · have hpositive : UnpackedFloat.unpackSign bits = 0#1 := BitVec.eq_of_toNat_eq (by
      rw [Nat.lt_one_iff.mp hzero]
      rfl)
    rw [hpositive]
    exact .inl ⟨rfl, rfl⟩
  · have hnegative : UnpackedFloat.unpackSign bits = 1#1 := BitVec.eq_of_toNat_eq (by
      rw [hone]
      rfl)
    rw [hnegative]
    exact .inr ⟨rfl, rfl⟩

lemma rank_eq_place {x : Float} (h : x.isNaN = false) :
    Decimal.rank x = place x.toModel.unpack := by
  have hrank : Decimal.rank x = if Word.half ≤ x.toModel.toBits.toBitVec.toNat then
      -((x.toModel.toBits.toBitVec.toNat - Word.half : Nat) : Int)
      else x.toModel.toBits.toBitVec.toNat := rfl
  have hhalf : Word.half = 2 ^ 63 := by decide
  change (UnpackedFloat.unpack .binary64 x.toModel.toBits.toBitVec).isNaN = false at h
  show _ = place (UnpackedFloat.unpack .binary64 x.toModel.toBits.toBitVec)
  rw [hrank, hhalf]
  generalize hstored : x.toModel.toBits.toBitVec = stored at h ⊢
  obtain ⟨bits, rfl⟩ : ∃ bits : BitVec Format.binary64.numBits, bits = stored := ⟨stored, rfl⟩
  have hbits := toNat_bits bits
  have hsign := sign_cases bits
  have hexponent := (UnpackedFloat.unpackExponent bits).isLt
  have hmantissa := (UnpackedFloat.unpackMantissa bits).isLt
  change _ < 2 ^ 11 at hexponent
  change _ < 2 ^ 52 at hmantissa
  have hparts := unpacks bits
  generalize UnpackedFloat.unpack .binary64 bits = unpacked at h hparts ⊢
  generalize UnpackedFloat.Sign.ofBitVec (UnpackedFloat.unpackSign bits) = sign at hsign hparts
  -- the sign bit says in which half of the words the bits are
  cases hparts with
  | notANumber => cases h
  | zero lowest bare =>
    simp only [place]
    split <;> omega
  | infinity ones bare =>
    rcases hsign with ⟨hs, rfl⟩ | ⟨hs, rfl⟩ <;> simp only [place] <;> split <;> omega
  | short lowest hm =>
    rcases hsign with ⟨hs, rfl⟩ | ⟨hs, rfl⟩ <;> simp only [place] <;> split <;> omega
  | full low high hm =>
    rcases hsign with ⟨hs, rfl⟩ | ⟨hs, rfl⟩ <;> simp only [place] <;> split <;> omega

/-- Exponent and mantissa as one whole number. -/
lemma graded_lt {m n : Nat} {e f : Int} (hm : Graded m e) (hn : Graded n f) :
    (e + 1074) * 2 ^ 52 + m < (f + 1074) * 2 ^ 52 + n ↔ e < f ∨ e = f ∧ m < n := by
  have hleft := hm.short
  have hright := hn.short
  rcases Int.lt_trichotomy e f with h | rfl | h
  · have := hn.full (lt_of_le_of_lt hm.low h)
    omega
  · omega
  · have := hm.full (lt_of_le_of_lt hn.low h)
    omega

/-- Every finite number has its parts as they are stored. -/
def Stored (u : UnpackedFloat) : Prop := ∀ sign m e hm, u = .finite sign m e hm → Graded m e

lemma stored_unpack (x : Float) : Stored x.toModel.unpack := fun _ _ _ _ => graded_unpack

lemma place_lt {u v : UnpackedFloat} (hu : u.isNaN = false) (hv : v.isNaN = false)
    (storedLeft : Stored u) (storedRight : Stored v) :
    place u < place v ↔ compareStandings (standing u) (standing v) = .lt := by
  rw [compareStandings_eq_lt]
  cases u with
  | notANumber => cases hu
  | infinity s =>
    cases v with
    | notANumber => cases hv
    | infinity t => cases s <;> cases t <;> simp [place, standing]
    | zero t => cases s <;> simp [place, standing]
    | finite t m e hm =>
      obtain ⟨low, high, short, full⟩ := storedRight t m e hm rfl
      cases s <;> cases t <;> simp only [place, standing] <;> omega
  | zero s =>
    cases v with
    | notANumber => cases hv
    | infinity t => cases t <;> simp [place, standing]
    | zero t => simp [place, standing]
    | finite t m e hm =>
      obtain ⟨low, high, short, full⟩ := storedRight t m e hm rfl
      cases t <;> simp only [place, standing] <;> omega
  | finite s m e hm =>
    have gradedLeft := storedLeft s m e hm rfl
    obtain ⟨low, high, short, full⟩ := storedLeft s m e hm rfl
    cases v with
    | notANumber => cases hv
    | infinity t => cases s <;> cases t <;> simp only [place, standing] <;> omega
    | zero t => cases s <;> simp only [place, standing] <;> omega
    | finite t n f hn =>
      have gradedRight := storedRight t n f hn rfl
      obtain ⟨low', high', short', full'⟩ := storedRight t n f hn rfl
      cases s <;> cases t <;> simp only [place, standing]
      case negative.negative =>
        rw [neg_lt_neg_iff, graded_lt gradedRight gradedLeft]
        simp [eq_comm]
      case positive.positive =>
        rw [graded_lt gradedLeft gradedRight]
        simp
      all_goals omega

/-- A number has the smaller rank exactly when it is smaller. -/
theorem rank_lt_rank {x y : Float} (hx : x.isNaN = false) (hy : y.isNaN = false) :
    Decimal.rank x < Decimal.rank y ↔ x < y := by
  rw [rank_eq_place hx, rank_eq_place hy, lt_iff_standing hx hy]
  exact place_lt hx hy (stored_unpack x) (stored_unpack y)

/-- Numbers have one rank exactly when they are the same, whatever sign a zero has. -/
theorem rank_eq_rank {x y : Float} (hx : x.isNaN = false) (hy : y.isNaN = false) :
    Decimal.rank x = Decimal.rank y ↔ (x == y) = true := by
  have hless := rank_lt_rank hx hy
  have hgreater := rank_lt_rank hy hx
  rw [lt_iff_standing hx hy, compareStandings_eq_lt] at hless
  rw [lt_iff_standing hy hx, compareStandings_eq_lt] at hgreater
  have hsame : (x == y) = true ↔ standing x.toModel.unpack = standing y.toModel.unpack := by
    change x.toModel.unpack.beq y.toModel.unpack = true ↔ _
    rw [UnpackedFloat.beq, compare_eq hx hy, beq_iff_eq, Option.some.injEq,
      compareStandings_eq_eq]
  rw [hsame, Prod.ext_iff, Prod.ext_iff]
  omega

end HouseStyle.Binary64
