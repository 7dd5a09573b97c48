import Mathlib
import StyleValues.Proofs.Number.Canonical
import StyleValues.Proofs.Number.Order

/-! The numbers that finite doubles stand for. Doubles are ordered as these numbers are, and are
whole where these are. -/

namespace StyleValues.Number

open Float.Model.UnpackedFloat

/-- The number that a finite double stands for. -/
def toRat? (x : Float) : Option ℚ :=
  match parts x with
  | .zero _ => some 0
  | .finite sign mantissa exponent _ => some (sign.apply mantissa * 2 ^ exponent)
  | _ => none

section Sign

variable (sign : Sign)

theorem apply_zero : sign.apply (0 : Nat) = 0 := by
  cases sign <;> rfl

theorem apply_mul (m n : ℤ) : sign.apply (m * n) = sign.apply m * n := by
  cases sign with
  | positive => rfl
  | negative => exact (Int.neg_mul m n).symm

theorem apply_eq_iff {m n : ℤ} : sign.apply m = n ↔ m = sign.apply n := by
  cases sign with
  | positive => rfl
  | negative => exact neg_eq_iff_eq_neg

theorem apply_sub (m n : ℤ) : sign.apply m - sign.apply n = sign.apply (m - n) := by
  cases sign with
  | positive => rfl
  | negative => exact (neg_sub' m n).symm

theorem abs_apply (n : ℤ) : |sign.apply n| = |n| := by
  cases sign with
  | positive => rfl
  | negative => exact abs_neg n

theorem abs_apply_mul (m : Nat) (e : ℤ) : |(sign.apply m : ℚ) * 2 ^ e| = m * 2 ^ e := by
  have powPos : (0 : ℚ) < 2 ^ e := zpow_pos two_pos e
  rw [abs_mul, abs_of_pos powPos, ← Int.cast_abs, abs_apply, Nat.abs_cast, Int.cast_natCast]

theorem mul_two_pow_eq_iff {mantissa : Nat} {k : Nat} {n : ℤ} :
    (sign.apply mantissa : ℚ) * 2 ^ (k : ℤ) = n ↔ sign.apply (mantissa * twoTo k : Nat) = n := by
  rw [Nat.cast_mul, apply_mul, twoTo_natCast, zpow_natCast]
  exact_mod_cast Iff.rfl

theorem mul_two_pow_neg_eq_iff {mantissa : Nat} {k : Nat} {n : ℤ} :
    (sign.apply mantissa : ℚ) * 2 ^ (-(k : ℤ)) = n ↔
      mantissa % twoTo k = 0 ∧ sign.apply (mantissa / twoTo k : Nat) = n := by
  have scale : (mantissa : ℤ) = sign.apply n * 2 ^ k ↔
      (sign.apply mantissa : ℚ) * 2 ^ (-(k : ℤ)) = n := by
    rw [zpow_neg, zpow_natCast, mul_inv_eq_iff_eq_mul₀ (by positivity), ← apply_mul,
      ← apply_eq_iff]
    exact_mod_cast Iff.rfl
  rw [← scale, twoTo_natCast]
  constructor
  · intro same
    have divides : 2 ^ k ∣ mantissa := by
      exact_mod_cast Dvd.intro_left (sign.apply n) same.symm
    obtain ⟨d, rfl⟩ := divides
    rw [Nat.mul_mod_right, Nat.mul_div_cancel_left d (by positivity), apply_eq_iff]
    refine ⟨rfl, ?_⟩
    push_cast at same
    rw [mul_comm] at same
    exact mul_right_cancel₀ (by positivity) same
  · rintro ⟨divides, same⟩
    obtain ⟨d, rfl⟩ := Nat.dvd_of_mod_eq_zero divides
    rw [Nat.mul_div_cancel_left d (by positivity), apply_eq_iff] at same
    rw [← same]
    push_cast
    exact mul_comm _ _

end Sign

section Value

variable {x y : Float} {p q : ℚ}

theorem isSome_toRat? (x : Float) : (toRat? x).isSome = isFinite x := by
  unfold toRat? isFinite
  cases parts x <;> rfl

theorem isFinite_of_toRat? (value : toRat? x = some q) : isFinite x := by
  rw [← isSome_toRat?, value, Option.isSome_some]

theorem exists_toRat? (finite : isFinite x) : ∃ q, toRat? x = some q :=
  Option.isSome_iff_exists.mp ((isSome_toRat? x).trans finite)

theorem whole?_eq_some_iff {n : ℤ} : whole? x = some n ↔ toRat? x = some (n : ℚ) := by
  unfold whole? toRat?
  cases parts x with
  | notANumber => simp
  | infinity sign => simp
  | zero sign => simp [eq_comm]
  | finite sign mantissa exponent positive =>
    dsimp only
    rw [Option.some_inj]
    by_cases whole : 0 ≤ exponent
    · obtain ⟨k, rfl⟩ := Int.eq_ofNat_of_zero_le whole
      rw [if_pos whole, Option.some_inj]
      exact (mul_two_pow_eq_iff sign).symm
    · obtain ⟨k, rfl⟩ : ∃ k : Nat, exponent = -k := ⟨exponent.natAbs, by omega⟩
      rw [if_neg whole, mul_two_pow_neg_eq_iff, neg_neg]
      split <;> simp_all

theorem toRat?_of_zero {sign : Sign} (zero : parts x = .zero sign) : toRat? x = some 0 := by
  rw [toRat?, zero]

theorem toRat?_of_finite {sign : Sign} {mantissa : Nat} {exponent : ℤ} {positive : 0 < mantissa}
    (finite : parts x = .finite sign mantissa exponent positive) :
    toRat? x = some ((sign.apply mantissa : ℚ) * 2 ^ exponent) := by
  rw [toRat?, finite]

theorem toRat?_abs (value : toRat? x = some q) : toRat? x.abs = some |q| := by
  have same : x.abs = ofParts (parts x).abs := rfl
  rcases cases_of_isFinite (isFinite_of_toRat? value) with
    ⟨sign, zero⟩ | ⟨sign, mantissa, exponent, positive, finite⟩
  · obtain rfl := Option.some.inj ((toRat?_of_zero zero).symm.trans value)
    rw [same, zero, abs_zero]
    exact toRat?_of_zero (parts_ofParts_zero .positive)
  · obtain rfl := Option.some.inj ((toRat?_of_finite finite).symm.trans value)
    rw [abs_apply_mul, same, finite]
    exact toRat?_of_finite
      (parts_ofParts_of_canonical (canonical_of_parts finite) positive .positive)

end Value

section Compare

theorem positive_apply_mul (m : Nat) (e : ℤ) :
    (Sign.positive.apply m : ℚ) * 2 ^ e = m * 2 ^ e := rfl

theorem negative_apply_mul (m : Nat) (e : ℤ) :
    (Sign.negative.apply m : ℚ) * 2 ^ e = -(m * 2 ^ e) := by
  rw [show Sign.negative.apply m = -(m : ℤ) from rfl, Int.cast_neg, neg_mul, Int.cast_natCast]

variable {x y : Float} {p q : ℚ} (left : toRat? x = some p) (right : toRat? y = some q)
include left right

/-- Finite doubles are ordered as their values are. -/
theorem compare_of_toRat? : (parts x).compare (parts y) = some (compare p q) := by
  have finite := isFinite_of_toRat? left
  have other := isFinite_of_toRat? right
  have above {n : Nat} (positive : 0 < n) (e : ℤ) : (0 : ℚ) < n * 2 ^ e := by positivity
  rcases cases_of_isFinite finite with ⟨s, hx⟩ | ⟨s, m, e, positive, hx⟩ <;>
    rcases cases_of_isFinite other with ⟨t, hy⟩ | ⟨t, n, f, more, hy⟩ <;>
    rw [toRat?, hx] at left <;> rw [toRat?, hy] at right <;> cases left <;> cases right <;>
    rw [hx, hy]
  · rfl
  · cases t with
    | positive =>
      rw [positive_apply_mul, compare_lt_iff_lt.mpr (above more f)]
      rfl
    | negative =>
      rw [negative_apply_mul, compare_gt_iff_gt.mpr (neg_neg_of_pos (above more f))]
      rfl
  · cases s with
    | positive =>
      rw [positive_apply_mul, compare_gt_iff_gt.mpr (above positive e)]
      rfl
    | negative =>
      rw [negative_apply_mul, compare_lt_iff_lt.mpr (neg_neg_of_pos (above positive e))]
      rfl
  · have order := (canonical_of_parts hx).compare_eq (canonical_of_parts hy)
    cases s with
    | positive =>
      cases t with
      | positive =>
        rw [positive_apply_mul, positive_apply_mul, order]
        rfl
      | negative =>
        have less := (neg_neg_of_pos (above more f)).trans (above positive e)
        rw [positive_apply_mul, negative_apply_mul, compare_gt_iff_gt.mpr less]
        rfl
    | negative =>
      cases t with
      | positive =>
        have less := (neg_neg_of_pos (above positive e)).trans (above more f)
        rw [negative_apply_mul, positive_apply_mul, compare_lt_iff_lt.mpr less]
        rfl
      | negative =>
        rw [negative_apply_mul, negative_apply_mul, compare_neg, order]
        rfl

theorem lt_iff_of_toRat? : x < y ↔ p < q := by
  rw [lt_iff, compare_of_toRat? left right, Option.some_inj, compare_lt_iff_lt]

theorem beq_iff_of_toRat? : x == y ↔ p = q := by
  rw [beq_iff, compare_of_toRat? left right, Option.some_inj, compare_eq_iff_eq]

end Compare

end StyleValues.Number
