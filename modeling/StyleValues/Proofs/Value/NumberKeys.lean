import StyleValues.Proofs.Dimension.ReadBack
import StyleValues.Proofs.Number.Order
import StyleValues.Proofs.Value.Equal
import StyleValues.Proofs.Value.Shape

/-! Numbers as keys. Nothing stands between a number and its unit, and still the text tells both, as
far as the unit does not go on with the number. -/

namespace StyleValues

namespace Value

open Number

theorem words_append_inj : ∀ word ∈ words, ∀ other ∈ words, ∀ rest rest',
    word.toList ++ rest = other.toList ++ rest' → word = other ∧ rest = rest' := by
  simp [words]

theorem formatNumber_of_nan {x : Float} (nan : x.isNaN) : formatNumber x = "NaN" := by
  rw [formatNumber, Layout.text, isNaN_iff.mp nan]
  rfl

theorem formatNumber_of_infinity {x : Float} {sign : Sign} (infinite : parts x = .infinity sign) :
    formatNumber x = signed sign "Infinity" := by
  rw [formatNumber, Layout.text, infinite]
  rfl

theorem signed_infinity_ne (sign : Sign) : signed sign "Infinity" ≠ "NaN" := by
  cases sign <;> simp [signed]

theorem sign_eq_of_signed_infinity {sign sign' : Sign}
    (same : signed sign "Infinity" = signed sign' "Infinity") : sign = sign' := by
  cases sign <;> cases sign' <;> simp [signed] at same ⊢

section Reading

variable {x y : Float}

theorem beq_or_nan_of_words (hx : isFinite x = false) (hy : isFinite y = false)
    (same : formatNumber x = formatNumber y) : x == y ∨ x.isNaN ∧ y.isNaN := by
  rcases cases_of_not_isFinite hx with nan | ⟨sign, infinite⟩
  · have nan : x.isNaN := isNaN_iff.mpr nan
    rcases cases_of_not_isFinite hy with nan' | ⟨sign', infinite'⟩
    · exact .inr ⟨nan, isNaN_iff.mpr nan'⟩
    · rw [formatNumber_of_nan nan, formatNumber_of_infinity infinite'] at same
      exact absurd same.symm (signed_infinity_ne sign')
  · rw [formatNumber_of_infinity infinite] at same
    rcases cases_of_not_isFinite hy with nan' | ⟨sign', infinite'⟩
    · rw [formatNumber_of_nan (isNaN_iff.mpr nan')] at same
      exact absurd same (signed_infinity_ne sign)
    · rw [formatNumber_of_infinity infinite'] at same
      left
      rw [beq_iff, infinite, infinite', sign_eq_of_signed_infinity same]
      cases sign' <;> rfl

theorem beq_of_readBack_eq (hx : isFinite x) (hy : isFinite y)
    (same : numberLayout.readBack x = numberLayout.readBack y) : x == y := by
  have back := readBack_beq hx
  rw [same] at back
  exact PartialEquivBEq.trans (BEq.symm back) (readBack_beq hy)

/-- A number in front of a unit is read up to the unit, and where it is written as a word nothing is
read at all. -/
theorem formatNumber_append_inj {u v : List Char} (apart : continuesNumber u = false)
    (apart' : continuesNumber v = false)
    (same : (formatNumber x).toList ++ u = (formatNumber y).toList ++ v) :
    u = v ∧ (x == y ∨ x.isNaN ∧ y.isNaN) := by
  by_cases hx : isFinite x
  · have read := numberLayout.literal?_text hx apart
    change literal? ((formatNumber x).toList ++ u) = _ at read
    rw [same] at read
    by_cases hy : isFinite y
    · have read' := numberLayout.literal?_text hy apart'
      obtain ⟨value, rest⟩ := Prod.mk.inj (Option.some.inj (read.symm.trans read'))
      exact ⟨rest, .inl (beq_of_readBack_eq hx hy value)⟩
    · rw [literal?_words _ (formatNumber_mem_words (eq_false_of_ne_true hy))] at read
      cases read
  · have hx := eq_false_of_ne_true hx
    have word := formatNumber_mem_words hx
    by_cases hy : isFinite y
    · have read := numberLayout.literal?_text hy apart'
      change literal? ((formatNumber y).toList ++ v) = _ at read
      rw [← same, literal?_words _ word] at read
      cases read
    · have hy := eq_false_of_ne_true hy
      obtain ⟨texts, rest⟩ :=
        words_append_inj _ word _ (formatNumber_mem_words hy) u v same
      exact ⟨rest, beq_or_nan_of_words hx hy texts⟩

theorem formatNumber_eq_of_beq_or_nan (same : x == y ∨ x.isNaN ∧ y.isNaN) :
    formatNumber x = formatNumber y := by
  rcases same with same | ⟨nan, nan'⟩
  · exact formatNumber_eq_of_beq same
  · rw [formatNumber_of_nan nan, formatNumber_of_nan nan']

end Reading

/-- Numbers are one key exactly if their units are the same text and their values are equal, zeros
of either sign included, or both not a number. Only units that could be taken for digits, a point or
an exponent behind the number are left out. -/
theorem fingerprint_number_eq_iff {x y : Float} {u v : String}
    (apart : continuesNumber u.toList = false) (apart' : continuesNumber v.toList = false) :
    (Value.number x u).fingerprint = (Value.number y v).fingerprint ↔
      u = v ∧ (x == y ∨ x.isNaN ∧ y.isNaN) := by
  have kinds : (Value.number x u).kind = (Value.number y v).kind := rfl
  rw [fingerprint_eq_iff, and_iff_right kinds, text, text]
  constructor
  · intro same
    have chars := congrArg String.toList same
    rw [String.toList_append, String.toList_append] at chars
    obtain ⟨units, values⟩ := formatNumber_append_inj apart apart' chars
    exact ⟨String.toList_inj.mp units, values⟩
  · rintro ⟨rfl, values⟩
    rw [formatNumber_eq_of_beq_or_nan values]

/-- Zeros in ems are one key, and so is all that is not a number; `10 ^ 21` ems are another key than
one in a unit that starts like an exponent. -/
theorem fingerprint_number_eq_iff_ems :
    continuesNumber "em".toList = false ∧ continuesNumber "e+x".toList = false ∧
      (Value.number (-0) "em").fingerprint = (Value.number 0 "em").fingerprint ∧
      (Value.number (0 / 0) "em").fingerprint = (Value.number (-(0 / 0)) "em").fingerprint ∧
      (Value.number 1e21 "em").fingerprint ≠ (Value.number 1 "e+x").fingerprint := by
  have em : continuesNumber "em".toList = false := by decide
  have exponent : continuesNumber "e+x".toList = false := by decide
  refine ⟨em, exponent, ?_, ?_, ?_⟩
  · exact (fingerprint_number_eq_iff em em).mpr ⟨rfl, .inl (by decide +kernel)⟩
  · exact (fingerprint_number_eq_iff em em).mpr ⟨rfl, .inr (by decide +kernel)⟩
  · intro same
    have units := ((fingerprint_number_eq_iff em exponent).mp same).1
    revert units
    decide

end Value

end StyleValues
