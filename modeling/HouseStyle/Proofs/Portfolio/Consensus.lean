import HouseStyle.Portfolio.Occurrence
import HouseStyle.Proofs.Decimal.Rounding

/-!
# Scores that count as the same

A consensus is not written again as long as it differs by less than the tolerance. Among fewer
than 2^24 projects two shares that differ do so by far more than that, and equal shares have the
same score, so a score that is kept is the one that would have been written.
-/

namespace HouseStyle

open Binary64
open Float.Model (UnpackedFloat)

/-- A number that is not too small is not below the tolerance. -/
lemma not_lt_tolerance {x : Float} {sign : UnpackedFloat.Sign} {m : Nat} {e : Int}
    (normal : IsNormal x.toModel.unpack sign m e) (he : -104 < e) (he' : e ≤ 971) :
    ¬ x.abs < consensusTolerance := by
  obtain ⟨⟨hm, heq⟩, low, high⟩ := normal
  have habs : x.abs.toModel.unpack = .finite .positive m e hm := by
    change (Float.Model.pack x.toModel.unpack.abs).unpack = _
    rw [heq]
    exact unpack_pack_normal low high (by omega) he'
  have htolerance : consensusTolerance.toModel.unpack = .finite .positive (2 ^ 52) (-104)
    (by decide) := rfl
  rw [lt_iff, habs, htolerance]
  change ¬ (some ((compare e (-104)).then (compare m (2 ^ 52))) == some .lt) = true
  rw [Int.compare_eq_gt.mpr he]
  exact Bool.false_ne_true

variable {k n k' n' : Nat}

/-- The consensus of few projects is a zero, or the normal number next to their share. -/
lemma consensus_shape (hkn : k ≤ n) (hn : n < 2 ^ 24) :
    k = 0 ∧ IsZero (consensus k n) ∨
      0 < k ∧ consensus k n = Float.ofNat k / Float.ofNat n ∧
        ∃ m e, IsNormal (consensus k n).toModel.unpack .positive m e ∧ -76 ≤ e ∧
          (m : ℚ) * 2 ^ e ≤ 1 ∧ |(m : ℚ) * 2 ^ e - k / n| ≤ 2 ^ (-53 : Int) := by
  unfold consensus
  rcases Nat.eq_zero_or_pos k with rfl | hk
  · refine .inl ⟨rfl, ?_⟩
    split
    · exact ⟨.positive, rfl⟩
    · obtain ⟨⟨hm, hfloat⟩, -, -⟩ := unpack_ofNat (n := n) (by omega) (by omega)
      have hzero : IsZero (Float.ofNat 0 / Float.ofNat n) := by
        change ∃ sign, (Float.Model.pack (UnpackedFloat.div _ (0 : Float).toModel.unpack
          (Float.ofNat n).toModel.unpack)).unpack = .zero sign
        rw [unpack_zero, hfloat]
        exact ⟨_, unpack_pack_zero _⟩
      rw [clampUnit_of_inUnit (inUnit_of_isZero hzero)]
      exact hzero
  · obtain ⟨m, e, normal, he, hone, hnear⟩ := unpack_quotient hk hkn hn
    rw [if_neg (by omega), clampUnit_of_inUnit (normal.inUnit hone)]
    exact .inr ⟨hk, rfl, m, e, normal, he, hone, hnear⟩

/-- Shares that differ are not near each other. -/
lemma shares_apart (hn : 0 < n) (hn' : 0 < n') (few : n < 2 ^ 24) (few' : n' < 2 ^ 24)
    (h : k * n' ≠ k' * n) : (2 : ℚ) ^ (-48 : Int) ≤ |(k : ℚ) / n - k' / n'| := by
  have hpos : (0 : ℚ) < n := by exact_mod_cast hn
  have hpos' : (0 : ℚ) < n' := by exact_mod_cast hn'
  have hwhole : (1 : ℚ) ≤ |(k : ℚ) * n' - n * k'| := by
    have : (1 : Int) ≤ |(k : Int) * n' - n * k'| := by
      refine Int.one_le_abs (sub_ne_zero.mpr fun heq => h ?_)
      rw [mul_comm k' n]
      exact_mod_cast heq
    exact_mod_cast this
  have hproduct : (n : ℚ) * n' ≤ 2 ^ 24 * 2 ^ 24 := by
    have : n * n' ≤ 2 ^ 24 * 2 ^ 24 := Nat.mul_le_mul (Nat.le_of_lt few) (Nat.le_of_lt few')
    exact_mod_cast this
  rw [div_sub_div _ _ (ne_of_gt hpos) (ne_of_gt hpos'), abs_div, abs_of_pos (mul_pos hpos hpos'),
    le_div_iff₀ (mul_pos hpos hpos')]
  calc (2 : ℚ) ^ (-48 : Int) * (n * n') ≤ 2 ^ (-48 : Int) * (2 ^ 24 * 2 ^ 24) := by gcongr
    _ = 1 := by norm_num
    _ ≤ |(k : ℚ) * n' - n * k'| := hwhole

/-- What is next to numbers that are not near each other is not near either. -/
lemma apart_of_near {v v' x x' : ℚ} (hv : |v - x| ≤ 2 ^ (-53 : Int))
    (hv' : |v' - x'| ≤ 2 ^ (-53 : Int)) (h : 2 ^ (-48 : Int) ≤ |x - x'|) :
    2 ^ (-49 : Int) ≤ |v - v'| := by
  have hfirst := abs_sub_le x v x'
  have hsecond := abs_sub_le v v' x'
  rw [abs_sub_comm x v] at hfirst
  norm_num at hv hv' h ⊢
  linarith

lemma unsignedZero_of_isZero {x : Float} (h : IsZero x) : Decimal.unsignedZero x = 0.0 := by
  obtain ⟨sign, h⟩ := h
  refine if_pos ?_
  change x.toModel.unpack.beq (.zero .positive) = true
  rw [h]
  rfl

lemma unsignedZero_of_normal {x : Float} {sign : UnpackedFloat.Sign} {m : Nat} {e : Int}
    (normal : IsNormal x.toModel.unpack sign m e) : Decimal.unsignedZero x = x := by
  obtain ⟨⟨hm, heq⟩, -, -⟩ := normal
  refine if_neg ?_
  change ¬ x.toModel.unpack.beq (.zero .positive) = true
  rw [heq]
  cases sign <;> exact Bool.false_ne_true

/-- Among few projects, a score that counts as the same as that of a share is the same. -/
theorem consensus_eq (hkn : k ≤ n) (few : n < 2 ^ 24) (hkn' : k' ≤ n') (few' : n' < 2 ^ 24)
    (same : sameConsensus (consensus k n) (Decimal.unsignedZero (consensus k' n')) = true) :
    Decimal.unsignedZero (consensus k' n') = Decimal.unsignedZero (consensus k n) := by
  rw [sameConsensus, decide_eq_true_iff] at same
  rcases consensus_shape hkn few with
      ⟨-, hzero⟩ | ⟨hk, hquotient, m, e, normal, he, hone, hnear⟩ <;>
    rcases consensus_shape hkn' few' with
      ⟨-, hzero'⟩ | ⟨hk', hquotient', m', e', normal', he', hone', hnear'⟩
  · rw [unsignedZero_of_isZero hzero, unsignedZero_of_isZero hzero']
  · have := normal'.exponent_le hone'
    rw [unsignedZero_of_normal normal'] at same
    exact absurd same (not_lt_tolerance (unpack_isZero_sub hzero normal' (by omega) (by omega))
      (by omega) (by omega))
  · have := normal.exponent_le hone
    rw [unsignedZero_of_isZero hzero'] at same
    exact absurd same (not_lt_tolerance (unpack_sub_isZero normal ⟨.positive, rfl⟩ (by omega)
      (by omega)) (by omega) (by omega))
  · rw [unsignedZero_of_normal normal'] at same ⊢
    rw [unsignedZero_of_normal normal]
    by_cases h : k * n' = k' * n
    · rw [hquotient, hquotient']
      exact (div_congr hk hkn (by omega) hk' hkn' (by omega) h).symm
    · have hapart := shares_apart (by omega) (by omega) few few' h
      have hpos : ∀ (m : Nat) (e : Int), (0 : ℚ) ≤ m * 2 ^ e := fun m e =>
        mul_nonneg (Nat.cast_nonneg m) (zpow_nonneg (by norm_num) e)
      have hvalue := hpos m e
      have hvalue' := hpos m' e'
      have hfar := apart_of_near hnear hnear' hapart
      obtain ⟨s, r, t, hsub, ht, ht'⟩ := unpack_sub normal normal' hfar
        (abs_le.mpr ⟨by linarith, by linarith⟩)
      exact absurd same (not_lt_tolerance hsub (by omega) (by omega))

end HouseStyle
