import Mathlib.Data.List.TakeWhile
import StyleValues.Units.Normal

/-! Units that a number value has room for, and unit texts that stand for themselves. -/

namespace StyleValues.Units

/-- One symbol at most, and none below the fraction bar. -/
def Fits (u : Units) : Prop := u.numerator.length ≤ 1 ∧ u.denominator = []

instance (u : Units) : Decidable u.Fits :=
  inferInstanceAs (Decidable (u.numerator.length ≤ 1 ∧ u.denominator = []))

def Plain (text : String) : Prop := '*' ∉ text.toList ∧ '/' ∉ text.toList

instance (text : String) : Decidable (Plain text) :=
  inferInstanceAs (Decidable ('*' ∉ text.toList ∧ '/' ∉ text.toList))

theorem isDivider_eq_false {text : String} (plain : Plain text) :
    ∀ c ∈ text.toList, isDivider c = false := by
  intro c member
  have star : c ≠ '*' := fun same => plain.1 (same ▸ member)
  have slash : c ≠ '/' := fun same => plain.2 (same ▸ member)
  simp [isDivider, star, slash]

theorem plain_of_isDivider_eq_false {text : String}
    (apart : ∀ c ∈ text.toList, isDivider c = false) : Plain text := by
  constructor
  · intro star
    cases apart '*' star
  · intro slash
    cases apart '/' slash

theorem parse_of_plain {text : String} (plain : Plain text) : parse text = single text "" := by
  have above : ∀ c ∈ text.toList, c != '/' := by
    intro c member
    exact bne_iff_ne.mpr fun same => plain.2 (same ▸ member)
  rw [parse, List.takeWhile_eq_self_iff.mpr above, List.dropWhile_eq_nil_iff.mpr above, symbols,
    List.splitOnP_eq_singleton (isDivider_eq_false plain)]
  by_cases empty : text = ""
  · rw [empty]
    rfl
  · simp [symbols, single, empty]

theorem normalized_single (text : String) : (single text "").normalized = single text "" := by
  by_cases empty : text = ""
  · simp [normalized, single, empty, cancel, sorted]
  · simp [normalized, single, empty, cancel, sorted]

theorem text_single (text : String) : (single text "").text = text := by
  by_cases empty : text = ""
  · simp [single, Units.text, empty]
  · simp [single, Units.text, empty]

theorem fits_single (text : String) : (single text "").Fits := by
  by_cases empty : text = ""
  · simp [single, Fits, empty]
  · simp [single, Fits, empty]

end StyleValues.Units
