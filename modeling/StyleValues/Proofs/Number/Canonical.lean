import Mathlib
import StyleValues.Proofs.Number.Whole

/-! The parts of finite doubles, and doubles put together from their parts again. -/

namespace StyleValues.Number

open Float.Model (Format)
open Float.Model.UnpackedFloat

/-- A mantissa and a power of two as doubles have them: 53 bits, or fewer with the least power. -/
structure Canonical (mantissa : Nat) (exponent : Int) : Prop where
  bits : mantissa < 2 ^ 53
  least : leastExponent ≤ exponent
  greatest : exponent ≤ greatestExponent
  full : 2 ^ 52 ≤ mantissa ∨ exponent = leastExponent

theorem ofParts_parts (x : Float) : ofParts (parts x) = x := by
  obtain ⟨bits, valid⟩ := x
  have same : pack .binary64 (unpack .binary64 bits.toBitVec) = bits.toBitVec :=
    pack_unpack_of_valid valid
  unfold ofParts parts Float.Model.pack Float.Model.unpack
  simp only [same]

theorem cases_of_isFinite {x : Float} (finite : isFinite x) :
    (∃ sign, parts x = .zero sign) ∨
      ∃ sign mantissa exponent positive, parts x = .finite sign mantissa exponent positive := by
  unfold isFinite at finite
  cases same : parts x with
  | zero sign => exact .inl ⟨sign, rfl⟩
  | finite sign mantissa exponent positive =>
    exact .inr ⟨sign, mantissa, exponent, positive, rfl⟩
  | notANumber => simp [same] at finite
  | infinity sign => simp [same] at finite

theorem cases_of_not_isFinite {x : Float} (notFinite : isFinite x = false) :
    parts x = .notANumber ∨ ∃ sign, parts x = .infinity sign := by
  unfold isFinite at notFinite
  cases same : parts x with
  | notANumber => exact .inl rfl
  | infinity sign => exact .inr ⟨sign, rfl⟩
  | zero sign => simp [same] at notFinite
  | finite sign mantissa exponent positive => simp [same] at notFinite

theorem canonical_of_parts {x : Float} {sign : Sign} {mantissa : Nat} {exponent : Int}
    {positive : 0 < mantissa} (finite : parts x = .finite sign mantissa exponent positive) :
    Canonical mantissa exponent := by
  revert finite
  change unpack .binary64 x.toModel.toBits.toBitVec = _ → _
  fun_cases unpack .binary64 x.toModel.toBits.toBitVec with
  | case1 => nofun
  | case2 => nofun
  | case3 => nofun
  | case4 fraction biased shift _ _ _ zero =>
    intro finite
    obtain ⟨-, rfl, rfl⟩ := Float.Model.UnpackedFloat.finite.inj finite
    have low : fraction.toNat < 2 ^ 52 := fraction.isLt
    have least : shift + 1 = leastExponent := by
      have none : biased.toNat = 0 := congrArg BitVec.toNat zero
      change (biased.toNat : Int) - ((1023 : Nat) + (52 : Nat)) + 1 = -1074
      omega
    exact ⟨by omega, least.ge, by rw [least]; decide, .inr least⟩
  | case5 fraction biased shift _ _ notGreatest notLeast =>
    intro finite
    obtain ⟨-, rfl, rfl⟩ := Float.Model.UnpackedFloat.finite.inj finite
    have low : fraction.toNat < 2 ^ 52 := fraction.isLt
    have above : biased.toNat ≠ 0 := fun zero => notLeast (BitVec.eq_of_toNat_eq zero)
    have below : biased.toNat ≠ 2047 := fun ones => notGreatest (BitVec.eq_of_toNat_eq ones)
    have bound : biased.toNat < 2 ^ 11 := biased.isLt
    have value : shift = biased.toNat - ((1023 : Nat) + (52 : Nat)) := rfl
    have least : -1074 ≤ shift := by omega
    have greatest : shift ≤ 971 := by omega
    rw [toNat_one_append]
    exact ⟨by omega, least, greatest, .inl (by omega)⟩

theorem parts_ofParts_subnormal (sign : Sign) {mantissa : Nat} (positive : 0 < mantissa)
    (few : mantissa < 2 ^ 52) :
    parts (ofParts (.finite sign mantissa leastExponent positive)) =
      .finite sign mantissa leastExponent positive := by
  have bits : mantissa.log2 < 52 := (Nat.log2_lt positive.ne').mpr few
  have packed : pack .binary64 (.finite sign mantissa leastExponent positive) =
      packComponents .binary64 sign 0#11 (BitVec.ofNat 52 mantissa) := by
    change (if mantissa.log2 + 1 = 53 then _ else packComponents .binary64 sign 0#11 _) = _
    rw [if_neg (by omega)]
  have inside : (BitVec.ofNat 52 mantissa).toNat = mantissa := by
    rw [BitVec.toNat_ofNat]
    omega
  have nonzero : BitVec.ofNat 52 mantissa ≠ 0#52 := by
    intro zero
    have : mantissa = 0 := inside.symm.trans (congrArg BitVec.toNat zero)
    omega
  change unpack .binary64 (pack .binary64 _) = _
  rw [packed, unpack]
  simp only [unpackMantissa_packComponents, unpackExponent_packComponents,
    unpackSign_packComponents, Sign.ofBitVec_toBitVec]
  rw [if_neg (by decide), if_pos trivial, dif_neg nonzero]
  congr 1

theorem parts_ofParts_of_canonical {mantissa : Nat} {exponent : Int}
    (canonical : Canonical mantissa exponent) (positive : 0 < mantissa) (sign : Sign) :
    parts (ofParts (.finite sign mantissa exponent positive)) =
      .finite sign mantissa exponent positive := by
  by_cases full : 2 ^ 52 ≤ mantissa
  · have bits : mantissa.log2 = 52 :=
      (Nat.log2_eq_iff positive.ne').mpr ⟨full, canonical.bits⟩
    exact parts_ofParts_finite sign positive bits canonical.least canonical.greatest
  · obtain rfl := canonical.full.resolve_left full
    exact parts_ofParts_subnormal sign positive (by omega)

theorem parts_ofParts_zero (sign : Sign) : parts (ofParts (.zero sign)) = .zero sign := by
  cases sign <;> rfl

theorem parts_ofParts_infinity (sign : Sign) :
    parts (ofParts (.infinity sign)) = .infinity sign := by
  cases sign <;> rfl

section Canonical

variable {m n : Nat} {e f : Int} (left : Canonical m e) (right : Canonical n f)
include left right

theorem Canonical.lt_of_exponent_lt (less : e < f) : (m : ℚ) * 2 ^ e < n * 2 ^ f := by
  have full : 2 ^ 52 ≤ n := right.full.resolve_right (left.least.trans_lt less).ne'
  calc (m : ℚ) * 2 ^ e < 2 ^ 53 * 2 ^ e := by
        gcongr
        exact_mod_cast left.bits
    _ = 2 ^ 52 * 2 ^ (e + 1) := by
        rw [zpow_add₀ two_ne_zero]
        ring
    _ ≤ n * 2 ^ f := by
        gcongr
        · exact_mod_cast full
        · exact one_le_two
        · exact less

/-- Doubles are compared by their powers of two, and then by their mantissas. -/
theorem Canonical.compare_eq :
    compare ((m : ℚ) * 2 ^ e) (n * 2 ^ f) = (compare e f).then (compare m n) := by
  rcases lt_trichotomy e f with less | rfl | greater
  · rw [compare_lt_iff_lt.mpr less, compare_lt_iff_lt.mpr (left.lt_of_exponent_lt right less)]
    rfl
  · have powPos : (0 : ℚ) < 2 ^ e := zpow_pos two_pos e
    rw [compare_eq_iff_eq.mpr rfl]
    simp only [LinearOrder.compare_eq_compareOfLessAndEq, compareOfLessAndEq,
      mul_lt_mul_iff_left₀ powPos, mul_left_inj' powPos.ne', Nat.cast_lt, Nat.cast_inj]
    rfl
  · rw [compare_gt_iff_gt.mpr greater, compare_gt_iff_gt.mpr (right.lt_of_exponent_lt left greater)]
    rfl

theorem Canonical.unique (same : (m : ℚ) * 2 ^ e = n * 2 ^ f) : m = n ∧ e = f := by
  have order := left.compare_eq right
  rw [compare_eq_iff_eq.mpr same, eq_comm, Ordering.then_eq_eq, compare_eq_iff_eq,
    compare_eq_iff_eq] at order
  exact order.symm

end Canonical

end StyleValues.Number
