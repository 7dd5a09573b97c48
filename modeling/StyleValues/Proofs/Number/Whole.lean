import Mathlib
import StyleValues.Number.Binary

/-! Whole numbers of at most 53 bits are doubles as they stand. -/

namespace StyleValues.Number

open Float.Model (Format)
open Float.Model.UnpackedFloat

theorem toNat_one_append (fraction : BitVec 52) :
    (1#1 ++ fraction).toNat = 2 ^ 52 + fraction.toNat := by
  rw [BitVec.toNat_append, ← Nat.shiftLeft_add_eq_or_of_lt fraction.isLt, Nat.shiftLeft_eq]
  rfl

theorem toNat_implicit_append {mantissa : Nat} (full : mantissa.log2 = 52) :
    (1#1 ++ BitVec.ofNat 52 mantissa).toNat = mantissa := by
  have positive : mantissa ≠ 0 := by
    rintro rfl
    cases full
  have low : 2 ^ 52 ≤ mantissa := full ▸ Nat.log2_self_le positive
  have high : mantissa < 2 ^ 53 := (Nat.log2_lt positive).mp (by omega)
  rw [toNat_one_append, BitVec.toNat_ofNat]
  omega

theorem pack_of_full (sign : Sign) {mantissa : Nat} {exponent : Int} (positive : 0 < mantissa)
    (full : mantissa.log2 = 52) {biased : Nat}
    (shift : exponent + (1023 : Nat) + (52 : Nat) = biased) (room : biased + 1 < 2048) :
    pack .binary64 (.finite sign mantissa exponent positive) =
      packComponents .binary64 sign (BitVec.ofNat 11 biased) (BitVec.ofNat 52 mantissa) := by
  have noOverflow : ¬2 ^ 11 ≤ (biased : Int).toNat + 1 := by omega
  have normal : mantissa.log2 + 1 = 53 := by omega
  change (let power := (exponent + (1023 : Nat) + (52 : Nat)).toNat
    if 2 ^ 11 ≤ power + 1 then _
    else if mantissa.log2 + 1 = 53 then
      packComponents .binary64 sign (BitVec.ofNat 11 power) (BitVec.ofNat 52 mantissa)
    else _) = _
  dsimp only
  rw [shift, if_neg noOverflow, if_pos normal, Int.toNat_natCast]

theorem parts_ofParts_finite (sign : Sign) {mantissa : Nat} {exponent : Int}
    (positive : 0 < mantissa) (full : mantissa.log2 = 52) (least : leastExponent ≤ exponent)
    (greatest : exponent ≤ greatestExponent) :
    parts (ofParts (.finite sign mantissa exponent positive)) =
      .finite sign mantissa exponent positive := by
  unfold leastExponent at least
  unfold greatestExponent at greatest
  obtain ⟨biased, shift⟩ : ∃ biased : Nat, exponent + (1023 : Nat) + (52 : Nat) = biased :=
    ⟨_, (Int.toNat_of_nonneg (by omega)).symm⟩
  have inside : (BitVec.ofNat 11 biased).toNat = biased := by
    rw [BitVec.toNat_ofNat]
    omega
  have notLeast : BitVec.ofNat 11 biased ≠ 0#11 := by
    intro zero
    have : biased = 0 := inside.symm.trans (congrArg BitVec.toNat zero)
    omega
  have notGreatest : BitVec.ofNat 11 biased ≠ -1#11 := by
    intro ones
    have : biased = 2047 := inside.symm.trans (congrArg BitVec.toNat ones)
    omega
  change unpack .binary64 (pack .binary64 _) = _
  rw [pack_of_full sign positive full shift (by omega), unpack]
  simp only [unpackMantissa_packComponents, unpackExponent_packComponents,
    unpackSign_packComponents, Sign.ofBitVec_toBitVec]
  rw [if_neg notGreatest, if_neg notLeast]
  congr 1
  · exact toNat_implicit_append full
  · rw [inside]
    change (biased : Int) - ((1023 : Nat) + (52 : Nat)) = exponent
    omega

theorem ofMantissa_of_full (sign : Sign) {mantissa : Nat} (full : mantissa.log2 = 52)
    {exponent : Int} (greatest : exponent ≤ greatestExponent) :
    ∃ positive, ofMantissa sign mantissa exponent =
      ofParts (.finite sign mantissa exponent positive) := by
  have positive : 0 < mantissa := by
    rcases Nat.eq_zero_or_pos mantissa with rfl | positive
    · cases full
    · exact positive
  have high : mantissa < 2 ^ 53 := (Nat.log2_lt (by omega)).mp (by omega)
  refine ⟨positive, ?_⟩
  have inRange : mantissa ≠ twoTo 53 := Nat.ne_of_lt high
  rw [ofMantissa, if_neg inRange, dif_pos positive, if_neg (by omega)]

theorem twoTo_natCast (exponent : Nat) : twoTo exponent = 2 ^ exponent := rfl

theorem twoTo_neg (exponent : Nat) : twoTo (-exponent) = 1 := by
  rw [twoTo, Int.toNat_neg_natCast]

theorem binaryExponent_one {n : Nat} (positive : 0 < n) : binaryExponent n 1 = n.log2 := by
  have low : 2 ^ n.log2 ≤ n := Nat.log2_self_le (by omega)
  have estimate : ((n.log2 : Int) - (Nat.log2 1 : Nat)) = n.log2 := by
    rw [show Nat.log2 1 = 0 from rfl]
    omega
  unfold binaryExponent
  simp only [estimate]
  rw [twoTo_neg, twoTo_natCast, if_neg (by omega)]

theorem roundHalfEven_one (n : Nat) : roundHalfEven n 1 = n := by
  simp [roundHalfEven, Nat.mod_one]

theorem log2_mul_two_pow {n : Nat} (positive : 0 < n) (shift : Nat) :
    (n * 2 ^ shift).log2 = n.log2 + shift := by
  induction shift with
  | zero => rw [Nat.pow_zero, Nat.mul_one, Nat.add_zero]
  | succ shift ih =>
    have wide : 0 < n * 2 ^ shift := Nat.mul_pos positive (Nat.two_pow_pos shift)
    have double : n * 2 ^ (shift + 1) = 2 * (n * 2 ^ shift) := by
      rw [Nat.pow_succ, ← Nat.mul_assoc, Nat.mul_comm]
    rw [double, Nat.log2_two_mul (by omega), ih, Nat.add_assoc]

theorem parts_nearest_one (sign : Sign) {n shift : Nat} (positive : 0 < n)
    (fills : n.log2 + shift = 52) :
    parts (nearest sign n 1) = .finite sign (n * 2 ^ shift) (-shift)
      (Nat.mul_pos positive (Nat.two_pow_pos shift)) := by
  have exponent : mantissaExponent n 1 = -shift := by
    rw [mantissaExponent, binaryExponent_one positive, leastExponent]
    omega
  have full : (n * 2 ^ shift).log2 = 52 := by rw [log2_mul_two_pow positive, fills]
  unfold nearest
  rw [if_neg (by omega), exponent]
  dsimp only
  rw [Int.neg_neg, twoTo_natCast, twoTo_neg, Nat.mul_one, roundHalfEven_one]
  have greatest : -(shift : Int) ≤ greatestExponent := by
    unfold greatestExponent
    omega
  obtain ⟨_, keeps⟩ := ofMantissa_of_full sign full greatest
  rw [keeps]
  refine parts_ofParts_finite sign _ full ?_ greatest
  unfold leastExponent
  omega

theorem apply_natAbs (n : Int) :
    (if n < 0 then Sign.negative else .positive : Sign).apply n.natAbs = n := by
  split
  · change -(n.natAbs : Int) = n
    omega
  · change (n.natAbs : Int) = n
    omega

/-- Whole numbers below `2 ^ 53` lose nothing on their way into a double. -/
theorem whole?_ofInt {n : Int} (small : n.natAbs < 2 ^ 53) : whole? (ofInt n) = some n := by
  by_cases zero : n = 0
  · rw [zero]
    rfl
  have positive : 0 < n.natAbs := Int.natAbs_pos.mpr zero
  have fits : n.natAbs.log2 < 53 := (Nat.log2_lt (by omega)).mpr small
  obtain ⟨shift, fills⟩ : ∃ shift, n.natAbs.log2 + shift = 52 := ⟨52 - n.natAbs.log2, by omega⟩
  unfold whole? ofInt
  rw [parts_nearest_one _ positive fills]
  dsimp only
  split
  · have unshifted : shift = 0 := by omega
    rw [twoTo_neg, unshifted, Nat.pow_zero, Nat.mul_one, Nat.mul_one, apply_natAbs]
  · rw [Int.neg_neg, twoTo_natCast, if_pos (Nat.mul_mod_left _ _),
      Nat.mul_div_cancel _ (Nat.two_pow_pos shift), apply_natAbs]

end StyleValues.Number
