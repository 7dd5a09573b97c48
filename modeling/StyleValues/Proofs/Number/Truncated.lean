import Mathlib
import StyleValues.Proofs.Number.Value

/-! Doubles without what is behind their point, and what is behind it: nothing if a double stands
for a whole number, and then a cast to an integer of 64 bits gives just that number. -/

namespace StyleValues.Number

open Float.Model (Format UnpackedFloat totalExponent)
open Float.Model.UnpackedFloat

/-- The double next to this one, towards zero, that has nothing behind its point. -/
def truncated (x : Float) : Float :=
  match parts x with
  | .finite sign mantissa exponent _ =>
      if 0 ≤ exponent then x else nearest sign (mantissa / twoTo (-exponent)) 1
  | _ => x

def fraction (x : Float) : Float :=
  x - truncated x

section Round

variable (sign : Sign) {mantissa : Nat} {exponent : ℤ}

theorem shiftToExponent_self (mantissa : Nat) (exponent : ℤ) :
    shiftToExponent mantissa exponent .exact exponent = (⟨mantissa, false, false⟩, exponent) := by
  rw [shiftToExponent, Int.sub_self]
  exact congrArg (Prod.mk _) (Int.add_zero exponent)

theorem shiftToTargetExponent_canonical (canonical : Canonical mantissa exponent)
    (positive : 0 < mantissa) :
    shiftToTargetExponent .binary64 mantissa exponent .exact =
      (⟨mantissa, false, false⟩, exponent) := by
  have few : mantissa.log2 < 53 := (Nat.log2_lt positive.ne').mpr canonical.bits
  have target : Format.binary64.targetExponent (totalExponent mantissa exponent) = exponent := by
    change max ((mantissa.log2 : ℤ) + 1 + exponent - (53 : Nat)) leastExponent = exponent
    have least := canonical.least
    rcases canonical.full with full | rfl
    · have := (Nat.le_log2 positive.ne').mpr full
      omega
    · omega
  rw [shiftToTargetExponent, target, shiftToExponent_self]

theorem roundWithAccuracy_canonical (canonical : Canonical mantissa exponent)
    (positive : 0 < mantissa) :
    roundWithAccuracy .binary64 sign mantissa exponent .exact =
      .finite sign mantissa exponent positive := by
  have same := shiftToTargetExponent_canonical canonical positive
  have exact : (⟨mantissa, false, false⟩ : ExtendedMantissa).roundedMantissa = mantissa := rfl
  simp only [roundWithAccuracy, same, exact]
  exact dif_neg positive.ne'

section Bits

variable (bits : mantissa < 2 ^ 53) (least : leastExponent ≤ exponent)
  (greatest : exponent ≤ greatestExponent)
include bits least greatest

theorem round_eq (positive : 0 < mantissa) :
    ∃ shift : Nat, Canonical (mantissa * 2 ^ shift) (exponent - shift) ∧
      round .binary64 sign mantissa exponent =
        .finite sign (mantissa * 2 ^ shift) (exponent - shift) (by positivity) := by
  have few : mantissa.log2 < 53 := (Nat.log2_lt positive.ne').mpr bits
  let target := Format.binary64.targetExponent (totalExponent mantissa exponent)
  have targetEq :
      target = max ((mantissa.log2 : ℤ) + 1 + exponent - (53 : Nat)) leastExponent := rfl
  obtain ⟨shift, amount⟩ : ∃ shift : Nat, exponent - target = shift :=
    ⟨(exponent - target).toNat, by omega⟩
  have wide : mantissa * 2 ^ shift ≠ 0 := by positivity
  have log := log2_mul_two_pow positive shift
  have canonical : Canonical (mantissa * 2 ^ shift) (exponent - shift) :=
    { bits := (Nat.log2_lt wide).mp (by omega)
      least := by omega
      greatest := by omega
      full := by
        rw [← Nat.le_log2 wide]
        omega }
  refine ⟨shift, canonical, ?_⟩
  rw [← roundWithAccuracy_canonical sign canonical]
  change roundWithAccuracy .binary64 sign (mantissa <<< (exponent - target).toNat)
    (exponent - (exponent - target).toNat) .exact = _
  rw [amount, Int.toNat_natCast, Nat.shiftLeft_eq]

theorem toRat?_round (positive : 0 < mantissa) :
    toRat? (ofParts (round .binary64 sign mantissa exponent)) =
      some ((sign.apply mantissa : ℚ) * 2 ^ exponent) := by
  obtain ⟨shift, canonical, same⟩ := round_eq sign bits least greatest positive
  have kept := parts_ofParts_of_canonical canonical (by positivity) sign
  rw [same, toRat?_of_finite kept, Nat.cast_mul, apply_mul, zpow_sub₀ two_ne_zero, zpow_natCast]
  push_cast
  field_simp

theorem toRat?_normalize :
    toRat? (ofParts (UnpackedFloat.normalize .binary64 (sign.apply mantissa) exponent .positive)) =
      some ((sign.apply mantissa : ℚ) * 2 ^ exponent) := by
  rcases Nat.eq_zero_or_pos mantissa with rfl | positive
  · rw [apply_zero, Int.cast_zero, zero_mul]
    exact toRat?_of_zero (parts_ofParts_zero .positive)
  have above : (0 : ℤ) < mantissa := by exact_mod_cast positive
  cases sign with
  | positive =>
    have order : compare (Sign.positive.apply mantissa) 0 = .gt := compare_gt_iff_gt.mpr above
    rw [UnpackedFloat.normalize, order]
    exact toRat?_round .positive bits least greatest positive
  | negative =>
    have order : compare (Sign.negative.apply mantissa) 0 = .lt :=
      compare_lt_iff_lt.mpr (neg_neg_of_pos above)
    have magnitude : (-Sign.negative.apply mantissa).toNat = mantissa :=
      congrArg Int.toNat (neg_neg (mantissa : ℤ))
    rw [UnpackedFloat.normalize, order]
    dsimp only
    rw [magnitude]
    exact toRat?_round .negative bits least greatest positive

end Bits

end Round

section Sub

variable {x y : Float} {s t : Sign} {m n : Nat} {e : ℤ} {left : 0 < m} {right : 0 < n}

theorem sub_eq (x y : Float) : x - y = ofParts (sub .binary64 (parts x) (parts y)) := rfl

theorem sub_of_parts (hx : parts x = .finite s m e left) (hy : parts y = .finite t n e right) :
    x - y = ofParts
      (UnpackedFloat.normalize .binary64 (s.apply m - t.apply n) e .positive) := by
  rw [sub_eq, hx, hy, UnpackedFloat.sub]
  simp only [decreaseExponent, min_self, Int.sub_self]
  rfl

theorem sub_self_of_isFinite (finite : isFinite x) : x - x = ofParts (.zero .positive) := by
  rcases cases_of_isFinite finite with ⟨s, zero⟩ | ⟨s, m, e, positive, same⟩
  · rw [sub_eq, zero]
    cases s <;> rfl
  · rw [sub_of_parts same same, Int.sub_self]
    rfl

theorem sub_zero_of_parts (hx : parts x = .finite s m e left) (hy : parts y = .zero t) :
    x - y = x := by
  have kept : UnpackedFloat.sub .binary64 (.finite s m e left) (.zero t) = .finite s m e left := rfl
  rw [sub_eq, hx, hy, kept, ← hx, ofParts_parts]

theorem apply_sub_div_mul (sign : Sign) (m n : Nat) :
    sign.apply m - sign.apply (m / n * n : Nat) = sign.apply (m % n : Nat) := by
  have := Nat.div_add_mod' m n
  rw [apply_sub]
  congr 1
  omega

end Sub

theorem toRat?_nearest_one (sign : Sign) {n : Nat} (bits : n < 2 ^ 53) :
    toRat? (nearest sign n 1) = some (sign.apply n : ℚ) := by
  rcases Nat.eq_zero_or_pos n with rfl | positive
  · rw [apply_zero, Int.cast_zero]
    exact toRat?_of_zero (parts_ofParts_zero sign)
  have few : n.log2 < 53 := (Nat.log2_lt positive.ne').mpr bits
  obtain ⟨shift, fills⟩ : ∃ shift, n.log2 + shift = 52 := ⟨52 - n.log2, by omega⟩
  rw [toRat?_of_finite (parts_nearest_one sign positive fills), Option.some_inj,
    mul_two_pow_neg_eq_iff, twoTo_natCast, Nat.mul_div_cancel n (by positivity)]
  exact ⟨Nat.mul_mod_left n _, rfl⟩

section Truncated

variable {x : Float}

theorem truncated_of_whole {sign : Sign} {m : Nat} {e : ℤ} {positive : 0 < m}
    (finite : parts x = .finite sign m e positive) (whole : 0 ≤ e) : truncated x = x := by
  rw [truncated, finite]
  exact if_pos whole

section Fine

variable {sign : Sign} {m k : Nat} {positive : 0 < m}
  (finite : parts x = .finite sign m (-k : ℤ) positive) (fine : 0 < k)
include finite fine

theorem truncated_of_fine : truncated x = nearest sign (m / 2 ^ k) 1 := by
  rw [truncated, finite]
  dsimp only
  rw [if_neg (by omega), neg_neg, twoTo_natCast]

theorem toRat?_truncated_of_fine :
    toRat? (truncated x) = some (sign.apply (m / 2 ^ k : Nat) : ℚ) := by
  rw [truncated_of_fine finite fine]
  exact toRat?_nearest_one sign ((Nat.div_le_self m _).trans_lt (canonical_of_parts finite).bits)

theorem toRat?_fraction_of_fine :
    toRat? (fraction x) = some ((sign.apply (m % 2 ^ k : Nat) : ℚ) * 2 ^ (-k : ℤ)) := by
  have canonical := canonical_of_parts finite
  rw [fraction, truncated_of_fine finite fine]
  rcases Nat.eq_zero_or_pos (m / 2 ^ k) with less | more
  · have low : m < 2 ^ k := (Nat.div_eq_zero_iff_lt (by positivity)).mp less
    have zero : parts (nearest sign 0 1) = .zero sign := parts_ofParts_zero sign
    rw [less, sub_zero_of_parts finite zero, Nat.mod_eq_of_lt low]
    exact toRat?_of_finite finite
  -- A double of one or more has a full mantissa, and what is before its point fills it as well.
  have bounded : 2 ^ k ≤ m := (Nat.div_pos_iff.mp more).2
  have small : k < 53 := (Nat.pow_lt_pow_iff_right (by decide)).mp (bounded.trans_lt canonical.bits)
  have full : m.log2 = 52 := by
    refine (Nat.log2_eq_iff positive.ne').mpr ⟨canonical.full.resolve_right ?_, canonical.bits⟩
    unfold leastExponent
    omega
  have fills : (m / 2 ^ k).log2 + k = 52 := by
    rw [Nat.log2_eq_log_two, Nat.log_div_base_pow, ← Nat.log2_eq_log_two, full]
    omega
  rw [sub_of_parts finite (parts_nearest_one sign more fills), apply_sub_div_mul]
  exact toRat?_normalize sign ((Nat.mod_le m _).trans_lt canonical.bits) canonical.least
    canonical.greatest

end Fine

/-- What stands before the point, and what is left behind it. -/
structure PointSplit (x : Float) (q : ℚ) (n : ℤ) : Prop where
  before : toRat? (truncated x) = some (n : ℚ)
  behind : toRat? (fraction x) = some (q - n)
  within : |(n : ℚ)| ≤ |q|
  near : |q - n| < 1

theorem pointSplit_of_truncated_eq {n : ℤ} (value : toRat? x = some (n : ℚ))
    (kept : truncated x = x) : PointSplit x n n where
  before := by rw [kept, value]
  behind := by
    rw [fraction, kept, sub_self_of_isFinite (isFinite_of_toRat? value), sub_self]
    exact toRat?_of_zero (parts_ofParts_zero .positive)
  within := le_rfl
  near := by
    rw [sub_self, abs_zero]
    exact one_pos

theorem pointSplit_of_fine {sign : Sign} {m k : Nat} {positive : 0 < m}
    (finite : parts x = .finite sign m (-k : ℤ) positive) (fine : 0 < k) :
    PointSplit x ((sign.apply m : ℚ) * 2 ^ (-k : ℤ)) (sign.apply (m / 2 ^ k : Nat)) := by
  have powPos : (0 : ℚ) < 2 ^ k := by positivity
  have quotient : (m : ℚ) * 2 ^ (-k : ℤ) = m / 2 ^ k := by
    rw [zpow_neg, zpow_natCast, div_eq_mul_inv]
  have rest : (sign.apply m : ℚ) * 2 ^ (-k : ℤ) - (sign.apply (m / 2 ^ k : Nat) : ℚ) =
      (sign.apply (m % 2 ^ k : Nat) : ℚ) * 2 ^ (-k : ℤ) := by
    rw [← apply_sub_div_mul, Nat.cast_mul, apply_mul, zpow_neg, zpow_natCast]
    push_cast
    field_simp
  refine ⟨toRat?_truncated_of_fine finite fine, ?_, ?_, ?_⟩
  · rw [rest]
    exact toRat?_fraction_of_fine finite fine
  · rw [abs_apply_mul, quotient, ← Int.cast_abs, abs_apply, Nat.abs_cast, Int.cast_natCast]
    exact_mod_cast Nat.cast_div_le
  · rw [rest, abs_apply_mul, zpow_neg, zpow_natCast, ← div_eq_mul_inv, div_lt_one powPos]
    exact_mod_cast Nat.mod_lt m (by positivity)

theorem exists_pointSplit {q : ℚ} (value : toRat? x = some q) : ∃ n : ℤ, PointSplit x q n := by
  rcases cases_of_isFinite (isFinite_of_toRat? value) with
    ⟨sign, zero⟩ | ⟨sign, m, e, positive, same⟩
  · obtain rfl := Option.some.inj ((toRat?_of_zero zero).symm.trans value)
    exact ⟨0, pointSplit_of_truncated_eq value (by rw [truncated, zero])⟩
  obtain rfl := Option.some.inj ((toRat?_of_finite same).symm.trans value)
  by_cases whole : 0 ≤ e
  · obtain ⟨k, rfl⟩ := Int.eq_ofNat_of_zero_le whole
    rw [(mul_two_pow_eq_iff sign).mpr rfl] at value ⊢
    exact ⟨_, pointSplit_of_truncated_eq value (truncated_of_whole same whole)⟩
  · obtain ⟨k, rfl⟩ : ∃ k : Nat, e = -k := ⟨e.natAbs, by omega⟩
    exact ⟨_, pointSplit_of_fine same (by omega)⟩

theorem fraction_beq_zero_iff {q : ℚ} (value : toRat? x = some q) :
    fraction x == 0 ↔ ∃ n : ℤ, q = n := by
  obtain ⟨n, split⟩ := exists_pointSplit value
  have zero : parts 0 = .zero .positive := rfl
  rw [beq_iff_of_toRat? split.behind (toRat?_of_zero zero), sub_eq_zero]
  refine ⟨fun same => ⟨n, same⟩, ?_⟩
  rintro ⟨k, rfl⟩
  have apart : |k - n| < 1 := by exact_mod_cast split.near
  rw [sub_eq_zero.mp (Int.abs_lt_one_iff.mp apart)]

theorem fraction_of_not_isFinite (notFinite : isFinite x = false) : ¬(fraction x == 0) := by
  suffices parts (fraction x) = .notANumber by
    rw [beq_iff, this]
    nofun
  rcases cases_of_not_isFinite notFinite with same | ⟨sign, same⟩
  · rw [fraction, truncated, same, sub_eq, same]
    rfl
  · rw [fraction, truncated, same, sub_eq, same]
    cases sign <;> rfl

end Truncated

section Cast

theorem mantissa_shiftRight (em : ExtendedMantissa) (k : Nat) :
    (em >>> k).mantissa = em.mantissa / 2 ^ k := by
  induction k with
  | zero => exact (Nat.div_one em.mantissa).symm
  | succ k ih =>
    change (em >>> k).mantissa / 2 = em.mantissa / 2 ^ (k + 1)
    rw [ih, Nat.div_div_eq_div_mul, pow_succ]

theorem roundToInt_eq (sign : Sign) (m : Nat) (e : ℤ) :
    roundToInt sign m e = sign.apply (m * twoTo e / twoTo (-e) : Nat) := by
  have amount : 0 - (e - e.toNat) = (-e).toNat := by omega
  simp only [roundToInt, decreaseExponent, shiftToExponent, mantissa_shiftRight, Int.sub_zero,
    amount, Int.toNat_natCast, Nat.shiftLeft_eq]
  rfl

variable {x : Float} {n : ℤ} (value : toRat? x = some (n : ℚ))
include value

theorem toInt_of_toRat? (least greatest : ℤ) : toInt least greatest (parts x) = n := by
  have finite := isFinite_of_toRat? value
  rcases cases_of_isFinite finite with ⟨sign, zero⟩ | ⟨sign, m, e, positive, same⟩
  · rw [toRat?_of_zero zero, Option.some_inj] at value
    rw [zero]
    exact_mod_cast value
  rw [toRat?_of_finite same, Option.some_inj] at value
  rw [same]
  change roundToInt sign m e = n
  rw [roundToInt_eq]
  rcases Int.eq_nat_or_neg e with ⟨k, rfl | rfl⟩
  · rw [twoTo_neg, Nat.div_one]
    exact (mul_two_pow_eq_iff sign).mp value
  · rw [twoTo_neg, neg_neg, Nat.mul_one]
    exact ((mul_two_pow_neg_eq_iff sign).mp value).2

/-- A whole number of at most 63 bits and a sign is cast as it is. -/
theorem toInt64_of_toRat? (small : |n| < 2 ^ 63) : x.toModel.toInt64.toInt = n := by
  obtain ⟨below, above⟩ := abs_lt.mp small
  have same : x.toModel.toInt64 =
      .ofIntClamp (toInt Int64.minValue.toInt Int64.maxValue.toInt (parts x)) := rfl
  rw [same, toInt_of_toRat? value]
  exact Int64.toInt_ofIntClamp below.le (Int.le_sub_one_of_lt above)

end Cast

end StyleValues.Number
