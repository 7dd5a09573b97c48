import Mathlib
import StyleValues.Proofs.Json.NormalForm
import StyleValues.Proofs.Number.Truncated

/-! Numbers in JSON are exact: what is written for a double has the number that it stands for, and
reads back as an equal double. -/

namespace StyleValues.Json

open Number

/-- A double is cast to an integer where nothing is behind its point and its magnitude leaves no
gaps between doubles. -/
def ofFloatByCast (x : Float) : Json :=
  if fraction x == 0 && x.abs < 9007199254740992 then
    .number (.integer x.toModel.toInt64.toInt)
  else if isFinite x then .number (.float x)
  else .null

/-- What is written for a double, told by the number that it stands for. -/
inductive Written (x : Float) : Json → Prop
  | integer {n : ℤ} (whole : toRat? x = some (n : ℚ)) (small : |n| < 2 ^ 53) :
      Written x (.number (.integer n))
  | float {q : ℚ} (value : toRat? x = some q) (other : ∀ n : ℤ, q = n → 2 ^ 53 ≤ |n|) :
      Written x (.number (.float x))
  | null (notFinite : isFinite x = false) : Written x .null

theorem abs_lt_iff_natAbs {n : ℤ} : |n| < 2 ^ 53 ↔ n.natAbs < twoTo 53 := by
  rw [Int.abs_eq_natAbs]
  exact_mod_cast Iff.rfl

theorem written_ofFloat (x : Float) : Written x (ofFloat x) := by
  rw [ofFloat]
  cases told : whole? x with
  | some n =>
    have value := whole?_eq_some_iff.mp told
    dsimp only
    split
    · rename_i small
      exact .integer value (abs_lt_iff_natAbs.mpr small)
    · rename_i large
      refine .float value fun k same => ?_
      obtain rfl : n = k := by exact_mod_cast same
      exact not_lt.mp (mt abs_lt_iff_natAbs.mp large)
  | none =>
    dsimp only
    split
    · rename_i finite
      obtain ⟨q, value⟩ := exists_toRat? finite
      refine .float value fun n same => ?_
      rw [same, ← whole?_eq_some_iff, told] at value
      cases value
    · rename_i notFinite
      exact .null (Bool.eq_false_of_not_eq_true notFinite)

section Cast

variable {x : Float} {q : ℚ} (value : toRat? x = some q)
include value

theorem abs_lt_limit_iff : x.abs < 9007199254740992 ↔ |q| < 2 ^ 53 := by
  have told : parts 9007199254740992 = .finite .positive (2 ^ 52) 1 (by decide) := rfl
  have limit : toRat? 9007199254740992 = some (2 ^ 53) := by
    rw [toRat?_of_finite told, positive_apply_mul]
    norm_num
  exact lt_iff_of_toRat? (toRat?_abs value) limit

/-- The tests on doubles find those that are whole and small. -/
theorem cast_iff :
    (fraction x == 0 && x.abs < 9007199254740992) = true ↔ ∃ n : ℤ, q = n ∧ |n| < 2 ^ 53 := by
  rw [Bool.and_eq_true, decide_eq_true_iff, fraction_beq_zero_iff value, abs_lt_limit_iff value]
  constructor
  · rintro ⟨⟨n, rfl⟩, small⟩
    exact ⟨n, rfl, by exact_mod_cast small⟩
  · rintro ⟨n, rfl, small⟩
    exact ⟨⟨n, rfl⟩, by exact_mod_cast small⟩

end Cast

section Written

variable {x : Float} {j : Json} (written : Written x j)
include written

theorem Written.eq_ofFloatByCast : j = ofFloatByCast x := by
  rw [ofFloatByCast]
  cases written with
  | @integer n whole small =>
    have room : |n| < 2 ^ 63 := small.trans (by norm_num)
    rw [if_pos ((cast_iff whole).mpr ⟨n, rfl, small⟩), toInt64_of_toRat? whole room]
  | float value other =>
    have notCast : ¬∃ n : ℤ, _ = (n : ℚ) ∧ |n| < 2 ^ 53 := fun ⟨n, same, small⟩ =>
      (other n same).not_gt small
    rw [if_neg (mt (cast_iff value).mp notCast), if_pos (isFinite_of_toRat? value)]
  | null notFinite =>
    have notCast : ¬(fraction x == 0 && x.abs < 9007199254740992) = true := fun cast =>
      fraction_of_not_isFinite notFinite (Bool.and_eq_true_iff.mp cast).1
    rw [if_neg notCast, notFinite]
    rfl

theorem Written.eq_ofFloat : j = ofFloat x :=
  written.eq_ofFloatByCast.trans (written_ofFloat x).eq_ofFloatByCast.symm

theorem Written.readBack (finite : isFinite x) :
    ∃ number, j = .number number ∧ number.toFloat == x ∧ Written number.toFloat j := by
  cases written with
  | @integer n whole small =>
    have same : toRat? (ofInt n) = some (n : ℚ) :=
      whole?_eq_some_iff.mp (whole?_ofInt (abs_lt_iff_natAbs.mp small))
    exact ⟨.integer n, rfl, (beq_iff_of_toRat? same whole).mpr rfl, .integer same small⟩
  | float value other =>
    exact ⟨.float x, rfl, (beq_iff_of_toRat? value value).mpr rfl, .float value other⟩
  | null notFinite =>
    rw [notFinite] at finite
    cases finite

end Written

theorem isFinite_eq_false_iff {x : Float} : isFinite x = false ↔ x.isNaN ∨ x.isInf := by
  change isFinite x = false ↔ (parts x).isNaN ∨ (parts x).isInf
  unfold isFinite
  cases parts x <;> simp [Float.Model.UnpackedFloat.isNaN, Float.Model.UnpackedFloat.isInf]

/-- Numbers are null where they are not finite, integers where they are whole and of magnitude below
`2 ^ 53`, and doubles elsewhere. The tests and the cast of doubles find just these integers, and
each number reads back. -/
theorem ofFloat_exact (x : Float) :
    (ofFloat x = .null ↔ x.isNaN ∨ x.isInf) ∧
    (∀ n : ℤ, ofFloat x = .number (.integer n) ↔ toRat? x = some (n : ℚ) ∧ |n| < 2 ^ 53) ∧
    (∀ y : Float, ofFloat x = .number (.float y) ↔
      y = x ∧ isFinite x ∧ ∀ n : ℤ, toRat? x = some (n : ℚ) → 2 ^ 53 ≤ |n|) ∧
    (∀ n : ℤ, ofFloat x = .number (.integer n) → x.toModel.toInt64.toInt = n) ∧
    ofFloat x = ofFloatByCast x ∧
    (isFinite x → ∃ number, ofFloat x = .number number ∧ number.toFloat == x ∧
      ofFloat number.toFloat = .number number) := by
  have written := written_ofFloat x
  refine ⟨?_, ?_, ?_, ?_, written.eq_ofFloatByCast, ?_⟩
  · rw [← isFinite_eq_false_iff]
    refine ⟨fun same => ?_, fun notFinite => (Written.null notFinite).eq_ofFloat.symm⟩
    rw [same] at written
    cases written with
    | null notFinite => exact notFinite
  · intro n
    refine ⟨fun same => ?_, fun ⟨whole, small⟩ => (Written.integer whole small).eq_ofFloat.symm⟩
    rw [same] at written
    cases written with
    | integer whole small => exact ⟨whole, small⟩
  · intro y
    constructor
    · intro same
      rw [same] at written
      cases written with
      | float value other =>
        refine ⟨rfl, isFinite_of_toRat? value, fun n whole => other n ?_⟩
        exact Option.some.inj (value.symm.trans whole)
    · rintro ⟨rfl, finite, other⟩
      obtain ⟨q, value⟩ := exists_toRat? finite
      refine (Written.float value fun n same => other n ?_).eq_ofFloat.symm
      rw [value, same]
  · intro n same
    rw [same] at written
    cases written with
    | integer whole small => exact toInt64_of_toRat? whole (small.trans (by norm_num))
  · intro finite
    obtain ⟨number, same, equal, again⟩ := written.readBack finite
    exact ⟨number, same, equal, again.eq_ofFloat.symm.trans same⟩

theorem ofFloat_exact_margins :
    ofFloat (-0) = .number (.integer 0) ∧
    ofFloat 9007199254740991 = .number (.integer 9007199254740991) ∧
    (Float.toModel 9007199254740991).toInt64.toInt = 9007199254740991 ∧
    ofFloat 9007199254740992 = .number (.float 9007199254740992) ∧
    ofFloat (-1 / 0) = .null ∧
    ∃ number, ofFloat 0.5 = .number number ∧ number.toFloat == 0.5 ∧
      ofFloat number.toFloat = .number number := by
  have zero : toRat? (-0) = some ((0 : ℤ) : ℚ) := whole?_eq_some_iff.mp rfl
  have last : toRat? 9007199254740991 = some ((9007199254740991 : ℤ) : ℚ) :=
    whole?_eq_some_iff.mp rfl
  have next : toRat? 9007199254740992 = some ((9007199254740992 : ℤ) : ℚ) :=
    whole?_eq_some_iff.mp rfl
  have integer := ((ofFloat_exact _).2.1 _).mpr ⟨last, by decide⟩
  refine ⟨((ofFloat_exact _).2.1 0).mpr ⟨zero, by decide⟩, integer,
    (ofFloat_exact _).2.2.2.1 _ integer,
    ((ofFloat_exact _).2.2.1 _).mpr ⟨rfl, by decide +kernel, fun n value => ?_⟩,
    (ofFloat_exact _).1.mpr (.inr (by decide +kernel)),
    (ofFloat_exact 0.5).2.2.2.2.2 (by decide +kernel)⟩
  obtain rfl : 9007199254740992 = n := by exact_mod_cast Option.some.inj (next.symm.trans value)
  decide

end StyleValues.Json
