import Mathlib
import StyleValues.Number.Binary

/-! The order of doubles. All comparisons look at one order of their parts, in which what is not a
number has no place. -/

namespace StyleValues.Number

open Float.Model

/-- The place of a part among the others: by its kind and sign, then by its power of two, then by
its mantissa, these two turned around below zero. Both zeros have one place. -/
def rank : Parts → ℤ ×ₗ ℤ ×ₗ ℤ
  | .infinity .negative => toLex (-2, toLex (0, 0))
  | .finite .negative mantissa exponent _ => toLex (-1, toLex (-exponent, -mantissa))
  | .zero _ | .notANumber => toLex (0, toLex (0, 0))
  | .finite .positive mantissa exponent _ => toLex (1, toLex (exponent, mantissa))
  | .infinity .positive => toLex (2, toLex (0, 0))

theorem compare_toLex (a b c d e f : ℤ) :
    compare (toLex (a, toLex (b, c))) (toLex (d, toLex (e, f))) =
      (compare a d).then ((compare b e).then (compare c f)) := by
  rw [Prod.Lex.compare_def]
  change (compare a d).then (compare (toLex (b, c)) (toLex (e, f))) = _
  rw [Prod.Lex.compare_def]
  rfl

theorem compare_natCast (m n : ℕ) : compare (m : ℤ) n = compare m n := by
  simp only [compare, compareOfLessAndEq, Nat.cast_lt, Nat.cast_inj]

theorem compare_neg {α : Type} [AddCommGroup α] [LinearOrder α] [IsOrderedAddMonoid α] (m n : α) :
    compare (-m) (-n) = (compare m n).swap := by
  rw [← Std.OrientedOrd.eq_swap]
  simp only [LinearOrder.compare_eq_compareOfLessAndEq, compareOfLessAndEq, neg_lt_neg_iff, neg_inj,
    eq_comm]

theorem compare_eq_rank {p q : Parts} (hp : p ≠ .notANumber) (hq : q ≠ .notANumber) :
    p.compare q = some (compare (rank p) (rank q)) := by
  cases p with
  | notANumber => exact absurd rfl hp
  | infinity s =>
    cases q with
    | notANumber => exact absurd rfl hq
    | zero t => cases s <;> rfl
    | infinity t | finite t => cases s <;> cases t <;> rfl
  | zero s =>
    cases q with
    | notANumber => exact absurd rfl hq
    | zero t => rfl
    | infinity t | finite t => cases t <;> rfl
  | finite s m e =>
    cases q with
    | notANumber => exact absurd rfl hq
    | infinity t => cases s <;> cases t <;> rfl
    | zero t => cases s <;> rfl
    | finite t n f =>
      cases s <;> cases t
      · simp only [rank, compare_toLex, compare_neg, compare_natCast, ← Ordering.swap_then]
        rfl
      · rfl
      · rfl
      · simp only [rank, compare_toLex, compare_natCast]
        rfl

section Float

variable {x y : Float}

theorem lt_iff : x < y ↔ (parts x).compare (parts y) = some .lt := by
  change decide (x.toModel < y.toModel) = true ↔ _
  rw [decide_eq_true_iff]
  exact beq_iff_eq

theorem le_iff : x ≤ y ↔ ((parts x).compare (parts y)).any (·.isLE) := by
  change decide (x.toModel ≤ y.toModel) = true ↔ _
  rw [decide_eq_true_iff]
  rfl

theorem beq_iff : x == y ↔ (parts x).compare (parts y) = some .eq := by
  change ((parts x).compare (parts y) == some .eq) = true ↔ _
  exact beq_iff_eq

theorem isNaN_iff : x.isNaN ↔ parts x = .notANumber :=
  UnpackedFloat.isNaN_iff

theorem le_iff_lt_or_beq : x ≤ y ↔ x < y ∨ x == y := by
  rw [le_iff, lt_iff, beq_iff]
  cases (parts x).compare (parts y) with
  | none => simp
  | some o => cases o <;> simp

theorem compare_of_nan (nan : x.isNaN ∨ y.isNaN) : (parts x).compare (parts y) = none := by
  rcases nan with nan | nan
  · rw [isNaN_iff.mp nan]
    rfl
  · rw [isNaN_iff.mp nan]
    cases parts x <;> rfl

theorem compare_of_not_nan (hx : ¬x.isNaN) (hy : ¬y.isNaN) :
    (parts x).compare (parts y) = some (compare (rank (parts x)) (rank (parts y))) :=
  compare_eq_rank (mt isNaN_iff.mpr hx) (mt isNaN_iff.mpr hy)

theorem compare_swap (x y : Float) :
    (parts y).compare (parts x) = ((parts x).compare (parts y)).map Ordering.swap := by
  by_cases nan : x.isNaN ∨ y.isNaN
  · rw [compare_of_nan nan, compare_of_nan nan.symm]
    rfl
  · obtain ⟨hx, hy⟩ := not_or.mp nan
    rw [compare_of_not_nan hx hy, compare_of_not_nan hy hx, Option.map_some,
      Std.OrientedOrd.eq_swap]

theorem gt_iff : y < x ↔ (parts x).compare (parts y) = some .gt := by
  rw [lt_iff, compare_swap x y, Option.map_eq_some_iff]
  simp

end Float

end StyleValues.Number
