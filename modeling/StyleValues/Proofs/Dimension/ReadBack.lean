import Mathlib
import StyleValues.Dimension.Reader
import StyleValues.Proofs.Number.ReadBack
import StyleValues.Proofs.Units.Exponent
import StyleValues.Proofs.Units.ReadBack

/-! Texts of dimensions read back, as far as their units do not go on with the number. -/

namespace StyleValues

open Number

namespace Value

theorem readBack_neg_zero : numberLayout.readBack (-0) = 0 := by
  decide +kernel

theorem readBack_of_ne_neg_zero {x : Float} (other : x ≠ -0) : numberLayout.readBack x = x := by
  unfold Layout.readBack
  split
  next sign zero =>
    rw [← ofParts_parts x, zero] at other ⊢
    cases sign with
    | positive => rfl
    | negative =>
      absurd other
      decide +kernel
  next => rfl

theorem readBack_beq {x : Float} (finite : isFinite x) : numberLayout.readBack x == x := by
  by_cases negative : x = -0
  · rw [negative, readBack_neg_zero]
    decide +kernel
  · rw [readBack_of_ne_neg_zero negative, Float.beq_self_iff]
    rintro rfl
    absurd finite
    decide +kernel

def words : List String := ["NaN", "Infinity", "-Infinity"]

theorem formatNumber_mem_words {x : Float} (notFinite : isFinite x = false) :
    formatNumber x ∈ words := by
  unfold formatNumber Layout.text
  rcases cases_of_not_isFinite notFinite with same | ⟨sign, same⟩
  · simp [same, numberLayout, words]
  · cases sign <;> simp [same, numberLayout, signed, words]

theorem tight_words : ∀ word ∈ words, Text.Tight word.toList ∧ word.toList ≠ [] := by
  decide +kernel

theorem literal?_words : ∀ word ∈ words, ∀ rest, literal? (word.toList ++ rest) = none := by
  simp only [words, List.forall_mem_cons]
  exact ⟨fun _ => rfl, fun _ => rfl, fun _ => rfl, nofun⟩

end Value

namespace Dimension

open Value

theorem toList_text (d : Dimension) :
    d.text.toList = (formatNumber d.value).toList ++ d.units.text.toList :=
  String.toList_append

theorem of_units (d : Dimension) (x : Float) : of x d.units = ⟨x, d.units, d.normal⟩ := by
  simp [of, d.normal.normalized_eq]

theorem parse_text_of_finite {d : Dimension} (finite : isFinite d.value)
    (legible : Units.Legible (d.units.numerator ++ d.units.denominator))
    (tight : Text.Tight d.units.text.toList)
    (apart : continuesNumber d.units.text.toList = false) :
    parse d.text = .ok ⟨numberLayout.readBack d.value, d.units, d.normal⟩ := by
  have trim : Text.trimmed d.text.toList = d.text.toList := by
    have number := numberLayout.tight_text finite
    rw [toList_text]
    exact (number.append (numberLayout.text_ne_empty finite) tight).trimmed_eq
  have read := numberLayout.literal?_text finite apart
  rw [parse, trim, toList_text, formatNumber, read]
  dsimp only
  rw [tight.trimmed_eq, String.ofList_toList, ofNumber, Units.parse_text_eq legible, of_units]
  rfl

theorem parse_text_of_not_finite {d : Dimension} (notFinite : isFinite d.value = false) :
    parse d.text = .error (.unreadable (String.ofList (Text.trimmed d.text.toList))) := by
  have word := formatNumber_mem_words notFinite
  obtain ⟨tight, some⟩ := tight_words _ word
  rw [parse, toList_text, tight.trimmed_append some, literal?_words _ word]
  rfl

/-- A dimension with a finite number is read from its text, equal to itself and with its lists of
units as they are, if the symbols can be told apart and the text of the units neither has blanks at
its ends nor starts as a number goes on. Only the sign of a zero is lost. No other number is read,
whatever its units. -/
theorem parse_text (d : Dimension) :
    (isFinite d.value → Units.Legible (d.units.numerator ++ d.units.denominator) →
      Text.Tight d.units.text.toList → continuesNumber d.units.text.toList = false →
      ∃ e, parse d.text = .ok e ∧ e == d ∧ e.units = d.units ∧
        (d.value = -0 → e.value = 0) ∧ (d.value ≠ -0 → e.value = d.value)) ∧
    (isFinite d.value = false →
      parse d.text = .error (.unreadable (String.ofList (Text.trimmed d.text.toList)))) := by
  refine ⟨fun finite legible tight apart => ?_, parse_text_of_not_finite⟩
  refine ⟨_, parse_text_of_finite finite legible tight apart, ?_, rfl, ?_, readBack_of_ne_neg_zero⟩
  · change (numberLayout.readBack d.value == d.value && d.units == d.units) = true
    rw [readBack_beq finite, beq_self_eq_true, Bool.true_and]
  · intro negative
    exact (congrArg numberLayout.readBack negative).trans readBack_neg_zero

def drift : Dimension where
  value := -1.5e-7
  units := ⟨["em", "rem"], ["s"]⟩
  normal := ⟨by decide, by decide, by decide⟩

def endless : Dimension where
  value := -1 / 0
  units := drift.units
  normal := drift.normal

theorem parse_text_drift :
    (∃ e, parse "-1.5e-7em*rem/s" = .ok e ∧ e == drift ∧ e.units = ⟨["em", "rem"], ["s"]⟩ ∧
      e.value = -1.5e-7) ∧
    parse "-Infinityem*rem/s" = .error (.unreadable "-Infinityem*rem/s") := by
  have number : drift.text = "-1.5e-7em*rem/s" := by decide +kernel
  have word : endless.text = "-Infinityem*rem/s" := by decide +kernel
  obtain ⟨e, read, same, units, -, value⟩ := (parse_text drift).1 (by decide +kernel)
    (by decide +kernel) (by decide +kernel) (by decide +kernel)
  have unread := (parse_text endless).2 (by decide +kernel)
  rw [number] at read
  rw [word] at unread
  exact ⟨⟨e, read, same, units, value (by decide +kernel)⟩, unread⟩

end Dimension

end StyleValues
