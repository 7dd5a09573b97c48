import Mathlib
import StyleValues.Proofs.Number.Nearest

/-! Fractions are rounded correctly: the double computed for a fraction is the one nearest to it,
also where a mantissa is rounded up to one bit more, where the powers of two run out, and near zero.
-/

namespace StyleValues.Number

theorem rounded_zero {q : ℚ} (nonneg : 0 ≤ q) (small : q ≤ 2 ^ (-1075 : Int)) (sign : Sign) :
    Rounded sign q (ofParts (.zero sign)) where
  signed := by rw [sign?, parts_ofParts_zero]
  finite_iff := by
    have bound : q < overflow := by
      calc q ≤ 1 := small.trans (zpow_le_one_of_nonpos₀ one_le_two (by decide))
        _ < overflow := by
          refine one_lt_mul_of_lt_of_le (by norm_num) ?_
          exact one_le_zpow₀ one_le_two (by decide)
    rw [isFinite, parts_ofParts_zero]
    simpa using bound
  nearest _ y theirs other := by
    have zero : absValue (ofParts (.zero sign)) = 0 := by rw [absValue, parts_ofParts_zero]
    have even : isEven (ofParts (.zero sign)) := by rw [isEven, parts_ofParts_zero]
    rw [zero] at other ⊢
    have least : (2 : ℚ) ^ leastExponent ≤ absValue y := by
      rcases cases_of_isFinite theirs with ⟨t, same⟩ | ⟨t, n, power, above, same⟩
      · exact absurd (by rw [absValue, same]) other
      · have one : (1 : ℚ) ≤ n := by exact_mod_cast above
        rw [absValue, same]
        exact (zpow_le_zpow_right₀ one_le_two (canonical_of_parts same).least).trans
          (le_mul_of_one_le_left (by positivity) one)
    have half : (2 : ℚ) ^ leastExponent = 2 * 2 ^ (-1075 : Int) := by
      rw [← zpow_one_add₀ two_ne_zero]
      rfl
    have near : |q - 0| ≤ |q - absValue y| :=
      abs_sub_le_of_middle (.inr ⟨by linarith, by linarith⟩)
    exact near.lt_or_eq.imp_right fun tie => ⟨tie, even⟩

theorem rounded_infinity {q : ℚ} (large : overflow ≤ q) (sign : Sign) :
    Rounded sign q (ofParts (.infinity sign)) where
  signed := by rw [sign?, parts_ofParts_infinity]
  finite_iff := by
    rw [isFinite, parts_ofParts_infinity]
    simpa using large
  nearest finite := by simp [isFinite, parts_ofParts_infinity] at finite

section Nearest

variable {num den : Nat} (numPos : 0 < num) (denPos : 0 < den)
include numPos denPos

theorem scaled_lt_full :
    (num : ℚ) / den / 2 ^ mantissaExponent num den < 2 ^ 53 := by
  have ratioPos : (0 : ℚ) < num / den := by positivity
  have powPos : (0 : ℚ) < 2 ^ mantissaExponent num den := zpow_pos two_pos _
  have below := Int.lt_zpow_succ_log_self Nat.one_lt_two ((num : ℚ) / den)
  rw [Nat.cast_two] at below
  rw [div_lt_iff₀ powPos, ← zpow_natCast, ← zpow_add₀ two_ne_zero]
  refine below.trans_le (zpow_le_zpow_right₀ one_le_two ?_)
  rw [mantissaExponent, binaryExponent_eq_log numPos denPos]
  omega

theorem full_le_scaled (notLeast : leastExponent < mantissaExponent num den) :
    2 ^ 52 ≤ (num : ℚ) / den / 2 ^ mantissaExponent num den := by
  have ratioPos : (0 : ℚ) < num / den := by positivity
  have powPos : (0 : ℚ) < 2 ^ mantissaExponent num den := zpow_pos two_pos _
  have above := Int.zpow_log_le_self Nat.one_lt_two ratioPos
  rw [Nat.cast_two] at above
  rw [le_div_iff₀ powPos, ← zpow_natCast, ← zpow_add₀ two_ne_zero]
  refine le_trans (zpow_le_zpow_right₀ one_le_two ?_) above
  rw [mantissaExponent, binaryExponent_eq_log numPos denPos] at notLeast ⊢
  omega

end Nearest

section Canonical

variable {mantissa : Nat} {exponent : Int}

theorem ofMantissa_of_canonical (canonical : Canonical mantissa exponent) (positive : 0 < mantissa)
    (sign : Sign) :
    ofMantissa sign mantissa exponent = ofParts (.finite sign mantissa exponent positive) := by
  have bits : mantissa ≠ twoTo 53 := Nat.ne_of_lt canonical.bits
  rw [ofMantissa, if_neg bits, dif_pos positive, if_neg canonical.greatest.not_gt]

theorem ofMantissa_two_pow {exponent : Int} (greatest : exponent + 1 ≤ greatestExponent)
    (sign : Sign) : ofMantissa sign (2 ^ 53) exponent =
      ofParts (.finite sign (2 ^ 52) (exponent + 1) (Nat.two_pow_pos 52)) := by
  have bits : 2 ^ 53 = twoTo 53 := rfl
  rw [ofMantissa, if_pos bits, if_neg greatest.not_gt]
  rfl

end Canonical

section Mantissa

variable {q : ℚ} {n : Nat} {exponent : Int}

theorem overflow_le (large : 2 ^ 53 - 1 / 2 ≤ q / 2 ^ exponent)
    (range : greatestExponent ≤ exponent) : overflow ≤ q := by
  have powPos : (0 : ℚ) < 2 ^ exponent := zpow_pos two_pos exponent
  calc overflow ≤ (2 ^ 53 - 1 / 2) * 2 ^ exponent := by
        refine mul_le_mul_of_nonneg_left ?_ (by norm_num)
        exact zpow_le_zpow_right₀ one_le_two range
    _ ≤ q := (le_div_iff₀ powPos).mp large

theorem holds_of_roundsTo (positive : 0 < n) (rounds : RoundsTo (q / 2 ^ exponent) n)
    (full : leastExponent < exponent → 2 ^ 52 ≤ q / 2 ^ exponent) :
    (Interval.ofFinite n exponent).Holds q := by
  rw [Interval.holds_ofFinite_iff positive]
  by_cases least : n = twoTo 52 ∧ leastExponent < exponent
  · have quarters : Interval.quartersBelow n exponent = 1 := if_pos least
    have near := (abs_le.mp rounds.le).2
    have above := full least.2
    have whole : (n : ℚ) = 2 ^ 52 := by
      rw [least.1]
      exact_mod_cast rfl
    rw [if_pos (by rw [least.1]; decide), quarters]
    push_cast
    constructor <;> linarith
  · have quarters : Interval.quartersBelow n exponent = 2 := if_neg least
    rw [quarters]
    split
    · have near := abs_le.mp rounds.le
      push_cast
      constructor <;> linarith
    · rename_i odd
      have near := abs_lt.mp (rounds.resolve_right fun tie => odd tie.2)
      push_cast
      constructor <;> linarith

/-- A mantissa that gets one bit too many is a power of two, which is the next one, or infinite. -/
theorem rounded_carry (low : 2 ^ 53 - 1 / 2 ≤ q / 2 ^ exponent) (high : q / 2 ^ exponent < 2 ^ 53)
    (least : leastExponent ≤ exponent) (sign : Sign) :
    Rounded sign q (ofMantissa sign (2 ^ 53) exponent) := by
  by_cases greatest : exponent + 1 ≤ greatestExponent
  · have canonical : Canonical (2 ^ 52) (exponent + 1) :=
      ⟨by decide, by omega, greatest, .inl le_rfl⟩
    have halved : q / 2 ^ (exponent + 1) = q / 2 ^ exponent / 2 := by
      rw [zpow_add_one₀ two_ne_zero, div_mul_eq_div_div]
    have quarters : Interval.quartersBelow (2 ^ 52) (exponent + 1) = 1 :=
      if_pos ⟨rfl, by omega⟩
    have holds : (Interval.ofFinite (2 ^ 52) (exponent + 1)).Holds q := by
      rw [Interval.holds_ofFinite_iff (by decide), if_pos (by decide), quarters, halved]
      push_cast
      constructor <;> linarith
    rw [ofMantissa_two_pow greatest]
    exact rounded_of_holds canonical _ holds (parts_ofParts_of_canonical canonical _ sign)
  · have bits : 2 ^ 53 = twoTo 53 := rfl
    have infinite : ofMantissa sign (2 ^ 53) exponent = ofParts (.infinity sign) := by
      rw [ofMantissa, if_pos bits, if_pos (by omega)]
    rw [infinite]
    exact rounded_infinity (overflow_le low (by omega)) sign

theorem rounded_of_pos (positive : 0 < n) (bits : n < 2 ^ 53)
    (rounds : RoundsTo (q / 2 ^ exponent) n) (least : leastExponent ≤ exponent)
    (full : leastExponent < exponent → 2 ^ 52 ≤ n ∧ 2 ^ 52 ≤ q / 2 ^ exponent) (sign : Sign) :
    Rounded sign q (ofMantissa sign n exponent) := by
  by_cases greatest : exponent ≤ greatestExponent
  · have canonical : Canonical n exponent :=
      ⟨bits, least, greatest, least.lt_or_eq'.imp (fun above => (full above).1) id⟩
    have holds := holds_of_roundsTo positive rounds fun above => (full above).2
    rw [ofMantissa_of_canonical canonical positive]
    exact rounded_of_holds canonical positive holds
      (parts_ofParts_of_canonical canonical positive sign)
  · have bits : n ≠ twoTo 53 := bits.ne
    have infinite : ofMantissa sign n exponent = ofParts (.infinity sign) := by
      rw [ofMantissa, if_neg bits, dif_pos positive, if_pos (by omega)]
    have doubled : q / 2 ^ (exponent - 1) = 2 * (q / 2 ^ exponent) := by
      rw [zpow_sub_one₀ two_ne_zero]
      field_simp
    have range : leastExponent < greatestExponent := by decide
    have above := (full (by omega)).2
    have large : 2 ^ 53 - 1 / 2 ≤ q / 2 ^ (exponent - 1) := by
      rw [doubled]
      linarith
    rw [infinite]
    exact rounded_infinity (overflow_le large (by omega)) sign

theorem rounded_of_none (positive : 0 < q) (rounds : RoundsTo (q / 2 ^ leastExponent) 0)
    (sign : Sign) : Rounded sign q (ofMantissa sign 0 leastExponent) := by
  have bits : 0 ≠ twoTo 53 := by decide
  have zero : ofMantissa sign 0 leastExponent = ofParts (.zero sign) := by
    rw [ofMantissa, if_neg bits, dif_neg (by decide)]
  have half : (2 : ℚ) ^ (-1075 : Int) = 1 / 2 * 2 ^ leastExponent := by
    rw [one_div, ← zpow_neg_one, ← zpow_add₀ two_ne_zero]
    rfl
  have near := (abs_le.mp rounds.le).2
  have small : q ≤ 2 ^ (-1075 : Int) := by
    rw [half, ← div_le_iff₀ (zpow_pos two_pos _)]
    push_cast at near
    linarith
  rw [zero]
  exact rounded_zero positive.le small sign

theorem rounded_ofMantissa (positive : 0 < q) (rounds : RoundsTo (q / 2 ^ exponent) n)
    (high : q / 2 ^ exponent < 2 ^ 53) (least : leastExponent ≤ exponent)
    (full : leastExponent < exponent → 2 ^ 52 ≤ q / 2 ^ exponent) (sign : Sign) :
    Rounded sign q (ofMantissa sign n exponent) := by
  have near := abs_le.mp rounds.le
  have bits : n ≤ 2 ^ 53 := by
    have close : (n : ℚ) < (2 ^ 53 + 1 : Nat) := by
      push_cast
      linarith
    have := Nat.cast_lt.mp close
    omega
  have notFew : leastExponent < exponent → 2 ^ 52 ≤ n := by
    intro notLeast
    have above := full notLeast
    have close : ((2 ^ 52 : Nat) : ℚ) < (n + 1 : Nat) := by
      push_cast
      linarith
    have := Nat.cast_lt.mp close
    omega
  rcases bits.eq_or_lt with rfl | fewer
  · push_cast at near
    exact rounded_carry (by linarith) high least sign
  rcases n.eq_zero_or_pos with rfl | some
  · obtain rfl : exponent = leastExponent :=
      least.eq_of_not_lt' fun notLeast => absurd (notFew notLeast) (by decide)
    exact rounded_of_none positive rounds sign
  · exact rounded_of_pos some fewer rounds least (fun above => ⟨notFew above, full above⟩) sign

end Mantissa

theorem rounded_nearest {num den : Nat} (numPos : 0 < num) (denPos : 0 < den) (sign : Sign) :
    Rounded sign (num / den) (nearest sign num den) := by
  rw [nearest, if_neg numPos.ne']
  exact rounded_ofMantissa (by positivity) (roundsTo_scaled num denPos _)
    (scaled_lt_full numPos denPos) (le_max_left _ _) (full_le_scaled numPos denPos) sign

end StyleValues.Number
