import StyleValues.Proofs.Dimension.Arithmetic

/-! Which units can be combined: whatever way they are written, net exponents decide for all
operations at once. -/

namespace StyleValues

namespace Units

/-- Units that numbers with units `u` take in: none at all, or the same net exponents. -/
def Takes (u v : Units) : Prop :=
  (∀ symbol, v.exponent symbol = 0) ∨ ∀ symbol, v.exponent symbol = u.exponent symbol

theorem takes_iff {u v : Units} :
    u.Takes v ↔ v.normalized = none ∨ v.normalized = u.normalized := by
  rw [normalized_eq_none_iff, normalized_eq_iff, Takes]

end Units

namespace Dimension

/-- Each operation of the first number with the second has a result. Sum and difference have the
units of the first. -/
structure Combines (a b : Dimension) : Prop where
  add : ∃ sum, a.add b = .ok sum ∧ sum.value = a.value + b.value ∧ sum.units = a.units
  subtract : ∃ difference, a.subtract b = .ok difference ∧
    difference.value = a.value - b.value ∧ difference.units = a.units
  compareTo : a.compareTo b = .ok (orderOf a.value b.value)
  lt : a.lt b = .ok (a.value < b.value)
  lte : a.lte b = .ok (a.value ≤ b.value)
  gt : a.gt b = .ok (b.value < a.value)
  gte : a.gte b = .ok (b.value ≤ a.value)
  equals : a.equals b = .ok (a.value == b.value)

structure Refuses (a b : Dimension) (cause : UnitError) : Prop where
  add : a.add b = .error cause
  subtract : a.subtract b = .error cause
  compareTo : a.compareTo b = .error cause
  lt : a.lt b = .error cause
  lte : a.lte b = .error cause
  gt : a.gt b = .error cause
  gte : a.gte b = .error cause
  equals : a.equals b = .error cause

theorem not_refuses_of_combines {a b : Dimension} (combines : Combines a b) (cause : UnitError) :
    ¬Refuses a b cause := by
  intro refuses
  cases combines.lt.symm.trans refuses.lt

theorem combine_of_takes {a b : Dimension} (takes : b.units = .none ∨ b.units = a.units)
    (f : Float → Float → α) : combine f a b = .ok (f a.value b.value) := by
  unfold combine convertTo
  by_cases unitless : b.isUnitless
  · rw [if_pos unitless]
    rfl
  · have same : b.units = a.units := takes.resolve_left (mt isUnitless_iff.mpr unitless)
    rw [if_neg unitless, if_pos same]
    rfl

theorem combine_of_not_takes {a b : Dimension} (takes : ¬(b.units = .none ∨ b.units = a.units))
    (f : Float → Float → α) :
    combine f a b = .error (.incompatible b.units.text a.units.text) := by
  obtain ⟨units, different⟩ := not_or.mp takes
  unfold combine convertTo
  rw [if_neg (mt isUnitless_iff.mp units), if_neg different]
  rfl

theorem combines_of_takes {a b : Dimension} (takes : b.units = .none ∨ b.units = a.units) :
    Combines a b where
  add := ⟨_, combine_of_takes takes _, rfl, a.normal.normalized_eq⟩
  subtract := ⟨_, combine_of_takes takes _, rfl, a.normal.normalized_eq⟩
  compareTo := combine_of_takes takes _
  lt := combine_of_takes takes _
  lte := combine_of_takes takes _
  gt := combine_of_takes takes _
  gte := combine_of_takes takes _
  equals := combine_of_takes takes _

theorem refuses_of_not_takes {a b : Dimension}
    (takes : ¬(b.units = .none ∨ b.units = a.units)) :
    Refuses a b (.incompatible b.units.text a.units.text) where
  add := combine_of_not_takes takes _
  subtract := combine_of_not_takes takes _
  compareTo := combine_of_not_takes takes _
  lt := combine_of_not_takes takes _
  lte := combine_of_not_takes takes _
  gt := combine_of_not_takes takes _
  gte := combine_of_not_takes takes _
  equals := combine_of_not_takes takes _

/-- The operations stand and fall together. They have results if the second number has no net
exponents or those of the first, however the units of both are given; else all name the normal units
of the two. -/
theorem combines_iff_takes (x y : Float) (u v : Units) :
    (Combines (of x u) (of y v) ↔ u.Takes v) ∧
      (Refuses (of x u) (of y v) (.incompatible v.normalized.text u.normalized.text) ↔
        ¬u.Takes v) := by
  rw [Units.takes_iff]
  by_cases takes : v.normalized = .none ∨ v.normalized = u.normalized
  · have combines : Combines (of x u) (of y v) := combines_of_takes takes
    exact ⟨iff_of_true combines takes,
      iff_of_false (not_refuses_of_combines combines _) (not_not_intro takes)⟩
  · have refuses : Refuses (of x u) (of y v) _ := refuses_of_not_takes takes
    exact ⟨iff_of_false (fun combines => not_refuses_of_combines combines _ refuses) takes,
      iff_of_true refuses takes⟩

end Dimension

end StyleValues
