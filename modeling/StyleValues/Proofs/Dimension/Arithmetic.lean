import StyleValues.Dimension.Basic
import StyleValues.Proofs.Units.Exponent

/-! Units of products and quotients: exponents add up, so units behave as a group. -/

namespace StyleValues.Dimension

def exponent (d : Dimension) (symbol : String) : Int :=
  d.units.exponent symbol

@[simp] theorem exponent_of (x : Float) (u : Units) (symbol : String) :
    (of x u).exponent symbol = u.exponent symbol :=
  Units.exponent_normalized u symbol

@[simp] theorem exponent_multiply (a b : Dimension) (symbol : String) :
    (a.multiply b).exponent symbol = a.exponent symbol + b.exponent symbol := by
  rw [multiply, exponent_of, exponent, exponent, Units.exponent, Units.exponent, Units.exponent,
    List.count_append, List.count_append]
  omega

@[simp] theorem exponent_divide (a b : Dimension) (symbol : String) :
    (a.divide b).exponent symbol = a.exponent symbol - b.exponent symbol := by
  rw [divide, exponent_of, exponent, exponent, Units.exponent, Units.exponent, Units.exponent,
    List.count_append, List.count_append]
  omega

theorem isUnitless_iff {d : Dimension} : d.isUnitless ↔ d.units = .none :=
  Units.isEmpty_iff

theorem isUnitless_unitless (x : Float) : (unitless x).isUnitless :=
  isUnitless_iff.mpr Units.normal_none.normalized_eq

theorem exponent_of_isUnitless {d : Dimension} (unitless : d.isUnitless) (symbol : String) :
    d.exponent symbol = 0 := by
  rw [exponent, isUnitless_iff.mp unitless, Units.exponent_none]

/-- Units agree as lists as soon as all exponents do. -/
theorem units_eq {a b : Dimension} (same : ∀ symbol, a.exponent symbol = b.exponent symbol) :
    a.units = b.units :=
  a.normal.eq_of_exponent_eq b.normal same

/-- Units are a group under multiplication: exponents add up, and what follows from it holds of the
lists of symbols as they stand. -/
theorem units_group_laws (a b c : Dimension) :
    (∀ symbol, (a.multiply b).exponent symbol = a.exponent symbol + b.exponent symbol) ∧
    (∀ symbol, (a.divide b).exponent symbol = a.exponent symbol - b.exponent symbol) ∧
    (a.multiply b).units = (b.multiply a).units ∧
    ((a.multiply b).multiply c).units = (a.multiply (b.multiply c)).units ∧
    ((a.multiply b).divide b).units = a.units ∧
    ((a.divide b).multiply b).units = a.units ∧
    (a.divide a).isUnitless ∧
    (c.isUnitless → (a.multiply c).units = a.units ∧ (c.multiply a).units = a.units ∧
      (a.divide c).units = a.units) := by
  refine ⟨exponent_multiply a b, exponent_divide a b, ?_, ?_, ?_, ?_, ?_, fun unitless => ?_⟩
  · exact units_eq fun symbol => by simp [Int.add_comm]
  · exact units_eq fun symbol => by simp [Int.add_assoc]
  · exact units_eq fun symbol => by simp
  · exact units_eq fun symbol => by simp
  · apply isUnitless_iff.mpr
    exact (a.divide a).normal.eq_of_exponent_eq Units.normal_none fun symbol => by
      change (a.divide a).exponent symbol = 0
      simp
  · have zero := exponent_of_isUnitless unitless
    exact ⟨units_eq fun symbol => by simp [zero], units_eq fun symbol => by simp [zero],
      units_eq fun symbol => by simp [zero]⟩

def speed : Dimension where
  value := 10
  units := ⟨["px", "px"], ["em", "s"]⟩
  normal := ⟨by decide, by decide, by decide⟩

/-- A plain number changes no speed into anything else. -/
theorem units_group_laws_speed :
    (unitless 2).isUnitless ∧
      (speed.multiply (unitless 2)).units = ⟨["px", "px"], ["em", "s"]⟩ ∧
      ((unitless 2).multiply speed).units = ⟨["px", "px"], ["em", "s"]⟩ ∧
      (speed.divide (unitless 2)).units = ⟨["px", "px"], ["em", "s"]⟩ := by
  obtain ⟨-, -, -, -, -, -, -, unchanged⟩ := units_group_laws speed speed (unitless 2)
  exact ⟨isUnitless_unitless 2, unchanged (isUnitless_unitless 2)⟩

end StyleValues.Dimension
