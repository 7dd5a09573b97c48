import Mathlib
import StyleValues.Proofs.Number.Interval

/-! The double nearest to a number, told without a rule how to find it. Each double is the nearest
to all numbers in its interval, and where two intervals meet not both doubles are even. -/

namespace StyleValues.Number

def absValue (x : Float) : ℚ :=
  match parts x with
  | .finite _ mantissa exponent _ => mantissa * 2 ^ exponent
  | _ => 0

def isEven (x : Float) : Bool :=
  match parts x with
  | .finite _ mantissa _ _ => mantissa % 2 = 0
  | _ => true

def sign? (x : Float) : Option Sign :=
  match parts x with
  | .zero sign | .infinity sign | .finite sign .. => some sign
  | .notANumber => none

/-- Half way from the greatest double to the power of two behind it. -/
def overflow : ℚ := (2 ^ 53 - 1 / 2) * 2 ^ greatestExponent

/-- The double that a number with a sign stands for. No finite double is nearer, and an even
mantissa wins a tie; what would be rounded to a power of two past the greatest double is infinite.
-/
structure Rounded (sign : Sign) (q : ℚ) (x : Float) : Prop where
  signed : sign? x = some sign
  finite_iff : isFinite x ↔ q < overflow
  nearest : isFinite x → ∀ y, isFinite y → absValue y ≠ absValue x →
    |q - absValue x| < |q - absValue y| ∨ |q - absValue x| = |q - absValue y| ∧ isEven x

section Middle

variable {r m z : ℚ}

theorem abs_sub_le_of_middle (between : z ≤ m ∧ m + z ≤ 2 * r ∨ m ≤ z ∧ 2 * r ≤ m + z) :
    |r - m| ≤ |r - z| := by
  rcases between with ⟨order, past⟩ | ⟨order, past⟩
  · exact (abs_le.mpr ⟨by linarith, by linarith⟩).trans (le_abs_self (r - z))
  · exact (abs_le.mpr ⟨by linarith, by linarith⟩).trans (neg_le_abs (r - z))

theorem abs_sub_lt_of_middle (between : z < m ∧ m + z < 2 * r ∨ m < z ∧ 2 * r < m + z) :
    |r - m| < |r - z| := by
  rcases between with ⟨order, past⟩ | ⟨order, past⟩
  · exact (abs_lt.mpr ⟨by linarith, by linarith⟩).trans_le (le_abs_self (r - z))
  · exact (abs_lt.mpr ⟨by linarith, by linarith⟩).trans_le (neg_le_abs (r - z))

end Middle

section Places

variable {n : Nat} {power exponent : Int}

theorem exists_places (coarse : exponent ≤ power) (n : Nat) :
    ∃ k : Nat, (n : ℚ) * 2 ^ (power - exponent) = k := by
  obtain ⟨k, shift⟩ : ∃ k : Nat, power - exponent = k :=
    ⟨_, (Int.toNat_of_nonneg (by omega)).symm⟩
  refine ⟨n * 2 ^ k, ?_⟩
  rw [shift]
  push_cast
  rw [zpow_natCast]

theorem places_le (theirs : Canonical n power) (fine : power < exponent) :
    (n : ℚ) * 2 ^ (power - exponent) ≤ 2 ^ 52 - 1 / 2 := by
  have bits : (n : ℚ) + 1 ≤ 2 ^ 53 := by exact_mod_cast theirs.bits
  have half : (2 : ℚ) ^ (power - exponent) ≤ 2⁻¹ := by
    rw [← zpow_neg_one]
    exact zpow_le_zpow_right₀ one_le_two (by omega)
  calc (n : ℚ) * 2 ^ (power - exponent) ≤ n * 2⁻¹ := by gcongr
    _ ≤ 2 ^ 52 - 1 / 2 := by linarith

end Places

section Canonical

variable {mantissa : Nat} {exponent : Int} (canonical : Canonical mantissa exponent)
  (positive : 0 < mantissa)

include canonical positive in
theorem absValue_apart {y : Float} (finite : isFinite y)
    (other : absValue y ≠ mantissa * 2 ^ exponent) :
    absValue y / 2 ^ exponent ≤
        mantissa - (Interval.quartersBelow mantissa exponent : ℚ) / 2 ∨
      mantissa + 1 ≤ absValue y / 2 ^ exponent := by
  have powPos : (0 : ℚ) < 2 ^ exponent := zpow_pos two_pos exponent
  have quarters := (Interval.quartersBelow_bounds mantissa exponent).2
  rcases cases_of_isFinite finite with ⟨sign, same⟩ | ⟨sign, n, power, above, same⟩
  · left
    have one : (1 : ℚ) ≤ mantissa := by exact_mod_cast positive
    rw [absValue, same, zero_div]
    linarith
  have theirs := canonical_of_parts same
  have value : absValue y = n * 2 ^ power := by rw [absValue, same]
  have scaled : absValue y / 2 ^ exponent = n * 2 ^ (power - exponent) := by
    rw [value, zpow_sub₀ two_ne_zero, mul_div_assoc]
  by_cases coarse : exponent ≤ power
  · obtain ⟨k, places⟩ := exists_places coarse n
    have apart : k ≠ mantissa := by
      rintro rfl
      exact other ((div_eq_iff powPos.ne').mp (scaled.trans places))
    rw [scaled, places]
    rcases apart.lt_or_gt with below | above
    · left
      have : (k : ℚ) + 1 ≤ mantissa := by exact_mod_cast below
      linarith
    · right
      exact_mod_cast above
  · left
    have low := places_le theirs (not_le.mp coarse)
    have notLeast : leastExponent < exponent := lt_of_le_of_lt theirs.least (not_le.mp coarse)
    have full : 2 ^ 52 ≤ mantissa := canonical.full.resolve_right notLeast.ne'
    rw [scaled]
    -- Only the least full mantissa has neighbours of twice the precision below.
    rcases full.eq_or_lt with least | more
    · have own : Interval.quartersBelow mantissa exponent = 1 := if_pos ⟨least.symm, notLeast⟩
      rw [own, ← least]
      push_cast
      exact low
    · have : (2 : ℚ) ^ 52 + 1 ≤ mantissa := by exact_mod_cast more
      linarith

section Holds

variable {q : ℚ} (holds : (Interval.ofFinite mantissa exponent).Holds q)
include canonical positive holds

/-- A double is the nearest one to all numbers in its interval. -/
theorem Interval.Holds.nearest {y : Float} (finite : isFinite y)
    (other : absValue y ≠ mantissa * 2 ^ exponent) :
    |q - mantissa * 2 ^ exponent| < |q - absValue y| ∨
      |q - mantissa * 2 ^ exponent| = |q - absValue y| ∧ mantissa % 2 = 0 := by
  have powPos : (0 : ℚ) < 2 ^ exponent := zpow_pos two_pos exponent
  have scaled (v : ℚ) : |q - v| = |q / 2 ^ exponent - v / 2 ^ exponent| * 2 ^ exponent := by
    rw [← sub_div, abs_div, abs_of_pos powPos, div_mul_cancel₀ _ powPos.ne']
  have apart := absValue_apart canonical positive finite other
  have quarters := (quartersBelow_bounds mantissa exponent).1
  rw [holds_ofFinite_iff positive] at holds
  rw [scaled, scaled (absValue y), mul_div_cancel_right₀ _ powPos.ne', mul_lt_mul_iff_left₀ powPos,
    mul_left_inj' powPos.ne']
  split at holds
  · rename_i even
    have near : |q / 2 ^ exponent - mantissa| ≤ |q / 2 ^ exponent - absValue y / 2 ^ exponent| := by
      refine abs_sub_le_of_middle (apart.imp (fun below => ?_) fun above => ?_) <;>
        constructor <;> linarith
    exact near.lt_or_eq.imp_right fun tie => ⟨tie, even⟩
  · left
    refine abs_sub_lt_of_middle (apart.imp (fun below => ?_) fun above => ?_) <;>
      constructor <;> linarith

theorem Interval.Holds.lt_overflow : q < overflow := by
  have powPos : (0 : ℚ) < 2 ^ exponent := zpow_pos two_pos exponent
  have bits : (mantissa : ℚ) + 1 ≤ 2 ^ 53 := by exact_mod_cast canonical.bits
  have scaled : q / 2 ^ exponent < 2 ^ 53 - 1 / 2 := by
    rw [holds_ofFinite_iff positive] at holds
    split at holds
    · rename_i even
      have fewer : (mantissa : ℚ) + 2 ≤ 2 ^ 53 := by
        have := canonical.bits
        exact_mod_cast (by omega : mantissa + 2 ≤ 2 ^ 53)
      linarith
    · linarith
  calc q < (2 ^ 53 - 1 / 2) * 2 ^ exponent := (div_lt_iff₀ powPos).mp scaled
    _ ≤ overflow := by
      refine mul_le_mul_of_nonneg_left ?_ (by norm_num)
      exact zpow_le_zpow_right₀ one_le_two canonical.greatest

theorem rounded_of_holds {sign : Sign} {x : Float}
    (finite : parts x = .finite sign mantissa exponent positive) : Rounded sign q x where
  signed := by rw [sign?, finite]
  finite_iff := by
    rw [isFinite, finite]
    simpa using holds.lt_overflow canonical positive
  nearest _ y theirs other := by
    have value : absValue x = mantissa * 2 ^ exponent := by rw [absValue, finite]
    have even : isEven x ↔ mantissa % 2 = 0 := by rw [isEven, finite, decide_eq_true_iff]
    rw [value] at other ⊢
    rw [even]
    exact holds.nearest canonical positive theirs other

end Holds

end Canonical

theorem exists_canonical {x : Float} (finite : isFinite x) :
    ∃ mantissa exponent, Canonical mantissa exponent ∧ absValue x = mantissa * 2 ^ exponent ∧
      (isEven x ↔ mantissa % 2 = 0) := by
  rcases cases_of_isFinite finite with ⟨sign, same⟩ | ⟨sign, mantissa, exponent, positive, same⟩
  · refine ⟨0, leastExponent, ⟨by decide, le_rfl, by decide, .inr rfl⟩, ?_, ?_⟩
    · rw [absValue, same]
      simp
    · rw [isEven, same]
      simp
  · refine ⟨mantissa, exponent, canonical_of_parts same, ?_, ?_⟩
    · rw [absValue, same]
    · rw [isEven, same, decide_eq_true_iff]

theorem eq_of_absValue {x y : Float} (finite : isFinite x) (other : isFinite y)
    (signs : sign? x = sign? y) (same : absValue x = absValue y) : x = y := by
  suffices parts x = parts y by rw [← ofParts_parts x, this, ofParts_parts]
  have nonzero {n : Nat} (positive : 0 < n) (e : Int) : (n : ℚ) * 2 ^ e ≠ 0 := by positivity
  rcases cases_of_isFinite finite with ⟨s, hx⟩ | ⟨s, m, e, positive, hx⟩ <;>
    rcases cases_of_isFinite other with ⟨t, hy⟩ | ⟨t, n, f, above, hy⟩ <;>
    rw [sign?, sign?, hx, hy] at signs <;> rw [absValue, absValue, hx, hy] at same <;>
    cases signs
  · rw [hx, hy]
  · exact absurd same.symm (nonzero above f)
  · exact absurd same (nonzero positive e)
  · obtain ⟨rfl, rfl⟩ := (canonical_of_parts hx).unique (canonical_of_parts hy) same
    rw [hx, hy]

theorem exists_between {x y : Float} (finite : isFinite x) (other : isFinite y)
    (less : absValue x < absValue y) (evenX : isEven x) (evenY : isEven y) :
    ∃ z, isFinite z ∧ absValue x < absValue z ∧ absValue z < absValue y := by
  obtain ⟨m, e, canonical, value, parity⟩ := exists_canonical finite
  have even := parity.mp evenX
  have powPos : (0 : ℚ) < 2 ^ e := zpow_pos two_pos e
  have next : Canonical (m + 1) e :=
    ⟨by have := canonical.bits; omega, canonical.least, canonical.greatest,
      canonical.full.imp_left (by omega)⟩
  have same := parts_ofParts_of_canonical next m.succ_pos .positive
  generalize ofParts (.finite .positive (m + 1) e m.succ_pos) = z at same
  have above : absValue z = ((m + 1 : Nat) : ℚ) * 2 ^ e := by rw [absValue, same]
  refine ⟨z, by rw [isFinite, same], ?_, ?_⟩
  · rw [value, above]
    gcongr
    exact m.lt_succ_self
  -- The next mantissa is odd, so that the greater double is not the next one but lies behind it.
  by_contra notLess
  have apart : absValue y ≠ ((m + 1 : Nat) : ℚ) * 2 ^ e := by
    intro value
    obtain ⟨n, f, theirs, valueY, parityY⟩ := exists_canonical other
    obtain ⟨rfl, -⟩ := next.unique theirs (value.symm.trans valueY)
    have := parityY.mp evenY
    omega
  have quarters : Interval.quartersBelow (m + 1) e = 2 :=
    if_neg fun least => by
      have full : m + 1 = 2 ^ 52 := least.1
      omega
  rcases absValue_apart next m.succ_pos other apart with below | beyond
  · rw [quarters, div_le_iff₀ powPos] at below
    push_cast at below
    rw [value] at less
    linarith
  · rw [le_div_iff₀ powPos] at beyond
    rw [above] at notLess
    push_cast at beyond notLess
    linarith

theorem Rounded.not_less {sign : Sign} {q : ℚ} {x y : Float} (left : Rounded sign q x)
    (right : Rounded sign q y) (finite : isFinite x) (other : isFinite y) :
    ¬absValue x < absValue y := by
  intro less
  obtain ⟨tie, evenX⟩ : |q - absValue x| = |q - absValue y| ∧ isEven x := by
    rcases left.nearest finite y other less.ne' with near | tie
    · rcases right.nearest other x finite less.ne with nearer | ⟨tie, -⟩
      · exact absurd nearer near.not_gt
      · exact absurd tie near.ne'
    · exact tie
  have evenY : isEven y := by
    rcases right.nearest other x finite less.ne with near | tie
    · exact absurd tie near.ne'
    · exact tie.2
  obtain ⟨z, finiteZ, above, below⟩ := exists_between finite other less evenX evenY
  have middle : absValue x + absValue y = 2 * q := by
    rcases abs_eq_abs.mp tie with same | opposite
    · linarith
    · linarith
  have nearer : |q - absValue z| < |q - absValue x| := by
    rw [abs_sub_comm q (absValue x), abs_lt, abs_of_neg (by linarith)]
    constructor <;> linarith
  rcases left.nearest finite z finiteZ above.ne' with near | ⟨tie, -⟩
  · exact nearer.not_gt near
  · exact nearer.ne' tie

theorem Rounded.eq_infinity {sign : Sign} {q : ℚ} {x : Float} (rounded : Rounded sign q x)
    (notFinite : ¬isFinite x) : x = ofParts (.infinity sign) := by
  have signed := rounded.signed
  rcases cases_of_not_isFinite (Bool.eq_false_of_not_eq_true notFinite) with same | ⟨other, same⟩
  · rw [sign?, same] at signed
    cases signed
  · rw [sign?, same] at signed
    cases signed
    rw [← same, ofParts_parts]

/-- A number with a sign stands for one double only. -/
theorem Rounded.unique {sign : Sign} {q : ℚ} {x y : Float} (left : Rounded sign q x)
    (right : Rounded sign q y) : x = y := by
  have signs : sign? x = sign? y := left.signed.trans right.signed.symm
  by_cases finite : isFinite x
  · have other := right.finite_iff.mpr (left.finite_iff.mp finite)
    exact eq_of_absValue finite other signs
      (le_antisymm (not_lt.mp (right.not_less left other finite))
        (not_lt.mp (left.not_less right finite other)))
  · have other : ¬isFinite y := fun other =>
      finite (left.finite_iff.mpr (right.finite_iff.mp other))
    rw [left.eq_infinity finite, right.eq_infinity other]

end StyleValues.Number
