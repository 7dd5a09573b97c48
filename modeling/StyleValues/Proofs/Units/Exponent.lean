import StyleValues.Units.Normal

/-! Net exponents of symbols. Units in normal form are known by them. -/

namespace StyleValues.Units

def exponent (u : Units) (symbol : String) : Int :=
  u.numerator.count symbol - u.denominator.count symbol

@[simp] theorem exponent_none (symbol : String) : none.exponent symbol = 0 := rfl

@[simp] theorem exponent_normalized (u : Units) (symbol : String) :
    u.normalized.exponent symbol = u.exponent symbol := by
  rw [exponent, count_numerator_normalized, count_denominator_normalized, exponent]
  omega

theorem normal_none : none.Normal where
  numerator_sorted := .nil
  denominator_sorted := .nil
  disjoint := nofun

theorem isEmpty_iff {u : Units} : u.isEmpty ↔ u = none := by
  obtain ⟨numerator, denominator⟩ := u
  simp [isEmpty, none]

theorem eq_of_count_eq {symbols others : List String} (sorted : symbols.Pairwise (· ≤ ·))
    (othersSorted : others.Pairwise (· ≤ ·))
    (same : ∀ symbol, symbols.count symbol = others.count symbol) : symbols = others := by
  have perm : symbols.Perm others := List.perm_iff_count.mpr same
  exact perm.eq_of_pairwise (fun _ _ _ _ le ge => String.le_antisymm le ge) sorted othersSorted

namespace Normal

variable {u v : Units}

theorem count_eq (normal : u.Normal) (symbol : String) :
    u.numerator.count symbol = (u.exponent symbol).toNat ∧
      u.denominator.count symbol = (-u.exponent symbol).toNat := by
  have oneSide : u.numerator.count symbol = 0 ∨ u.denominator.count symbol = 0 := by
    by_cases above : symbol ∈ u.numerator
    · exact .inr (List.count_eq_zero.mpr (normal.disjoint symbol above))
    · exact .inl (List.count_eq_zero.mpr above)
  rw [exponent]
  omega

theorem eq_of_exponent_eq (normal : u.Normal) (other : v.Normal)
    (same : ∀ symbol, u.exponent symbol = v.exponent symbol) : u = v := by
  have above : u.numerator = v.numerator := by
    refine eq_of_count_eq normal.numerator_sorted other.numerator_sorted fun symbol => ?_
    rw [(normal.count_eq symbol).1, (other.count_eq symbol).1, same]
  have below : u.denominator = v.denominator := by
    refine eq_of_count_eq normal.denominator_sorted other.denominator_sorted fun symbol => ?_
    rw [(normal.count_eq symbol).2, (other.count_eq symbol).2, same]
  exact (Units.mk.injEq ..).mpr ⟨above, below⟩

theorem normalized_eq (normal : u.Normal) : u.normalized = u :=
  (normal_normalized u).eq_of_exponent_eq normal (exponent_normalized u)

end Normal

theorem normalized_eq_iff {u v : Units} :
    u.normalized = v.normalized ↔ ∀ symbol, u.exponent symbol = v.exponent symbol := by
  constructor
  · intro same symbol
    rw [← exponent_normalized u, same, exponent_normalized]
  · intro same
    apply (normal_normalized u).eq_of_exponent_eq (normal_normalized v)
    simpa using same

theorem normalized_eq_none_iff {u : Units} :
    u.normalized = none ↔ ∀ symbol, u.exponent symbol = 0 := by
  rw [← normal_none.normalized_eq, normalized_eq_iff]
  simp

end StyleValues.Units
