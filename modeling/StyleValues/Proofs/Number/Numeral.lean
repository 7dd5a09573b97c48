import Mathlib
import StyleValues.Number.Layout
import StyleValues.Number.Literal
import StyleValues.Proofs.Number.Interval

/-! Digits with a point among them: what a layout writes for a decimal before any exponent, and the
value that is read from it. -/

namespace StyleValues.Number

section Digits

variable {digits whole fraction : List Char}

theorem natOfDigits_append_zeros (digits : List Char) (count : Nat) :
    natOfDigits (digits ++ List.replicate count '0') = natOfDigits digits * 10 ^ count := by
  unfold natOfDigits
  rw [Nat.ofDigitChars_append, Nat.ofDigitChars_replicate_zero, Nat.mul_comm]

theorem natOfDigits_zeros_append (count : Nat) (digits : List Char) :
    natOfDigits (List.replicate count '0' ++ digits) = natOfDigits digits := by
  unfold natOfDigits
  rw [Nat.ofDigitChars_append, Nat.ofDigitChars_replicate_zero, Nat.mul_zero]

theorem isDigit_of_mem_zeros {count : Nat} {c : Char} (member : c ∈ List.replicate count '0') :
    c.isDigit := by
  rw [List.eq_of_mem_replicate member]
  decide

theorem ne_point_of_isDigit {c : Char} (digit : c.isDigit) : c ≠ '.' := by
  rintro rfl
  cases digit

theorem bne_point (all : ∀ c ∈ digits, c.isDigit) : ∀ c ∈ digits, (c != '.') = true :=
  fun c member => bne_iff_ne.mpr (ne_point_of_isDigit (all c member))

theorem isDigitOrPoint_of_isDigit {c : Char} (digit : c.isDigit) : isDigitOrPoint c := by
  simp [isDigitOrPoint, digit]

theorem pointed?_digits (all : ∀ c ∈ digits, c.isDigit) (some : digits ≠ []) :
    pointed? digits = .some ⟨natOfDigits digits, 0⟩ := by
  have noPoint := bne_point all
  unfold pointed?
  rw [List.takeWhile_eq_self_iff.mpr noPoint, List.dropWhile_eq_nil_iff.mpr noPoint]
  simp [some]

theorem pointed?_append (wholeDigits : ∀ c ∈ whole, c.isDigit) (fraction : List Char) :
    pointed? (whole ++ '.' :: fraction) =
      if '.' ∈ fraction ∨ whole ++ fraction = [] then none
      else some ⟨natOfDigits (whole ++ fraction), -fraction.length⟩ := by
  have noPoint := bne_point wholeDigits
  unfold pointed?
  rw [List.takeWhile_append_of_pos noPoint, List.dropWhile_append_of_pos noPoint]
  simp only [List.takeWhile_cons, List.dropWhile_cons, bne_self_eq_false, Bool.false_eq_true,
    if_false, List.append_nil, List.drop_one, List.tail_cons]

theorem pointed?_point (wholeDigits : ∀ c ∈ whole, c.isDigit)
    (fractionDigits : ∀ c ∈ fraction, c.isDigit) (some : whole ++ fraction ≠ []) :
    pointed? (whole ++ '.' :: fraction) =
      .some ⟨natOfDigits (whole ++ fraction), -fraction.length⟩ := by
  have noPointBehind : '.' ∉ fraction := by
    intro member
    exact ne_point_of_isDigit (fractionDigits _ member) rfl
  rw [pointed?_append wholeDigits, if_neg (not_or.mpr ⟨noPointBehind, some⟩)]

/-- Digits with at most one point among or behind them, and their value. -/
structure Numeral (run : List Char) (q : ℚ) : Prop where
  chars : ∀ c ∈ run, isDigitOrPoint c
  head : ∃ c rest, run = c :: rest ∧ c.isDigit
  reads : ∃ d, pointed? run = some d ∧ d.value = q

theorem exists_digit_of_ne_nil (all : ∀ c ∈ digits, c.isDigit) (some : digits ≠ []) :
    ∃ c rest, digits = c :: rest ∧ c.isDigit := by
  obtain ⟨c, rest, rfl⟩ := List.exists_cons_of_ne_nil some
  exact ⟨c, rest, rfl, all c List.mem_cons_self⟩

theorem numeral_digits (all : ∀ c ∈ digits, c.isDigit) (some : digits ≠ []) :
    Numeral digits (natOfDigits digits) where
  chars c member := isDigitOrPoint_of_isDigit (all c member)
  head := exists_digit_of_ne_nil all some
  reads := ⟨_, pointed?_digits all some, by simp [Decimal.value]⟩

theorem numeral_point (wholeDigits : ∀ c ∈ whole, c.isDigit)
    (fractionDigits : ∀ c ∈ fraction, c.isDigit) (some : whole ≠ []) :
    Numeral (whole ++ '.' :: fraction)
      (natOfDigits (whole ++ fraction) * 10 ^ (-fraction.length : Int)) where
  chars c member := by
    rcases List.mem_append.mp member with inWhole | inFraction
    · exact isDigitOrPoint_of_isDigit (wholeDigits c inWhole)
    rcases List.mem_cons.mp inFraction with rfl | inFraction
    · decide
    · exact isDigitOrPoint_of_isDigit (fractionDigits c inFraction)
  head := by
    obtain ⟨c, rest, rfl, digit⟩ := exists_digit_of_ne_nil wholeDigits some
    exact ⟨c, rest ++ '.' :: fraction, rfl, digit⟩
  reads := ⟨_, pointed?_point wholeDigits fractionDigits
    (List.append_ne_nil_of_left_ne_nil some fraction), rfl⟩

theorem numeral_front (all : ∀ c ∈ digits, c.isDigit) (count : Nat) :
    Numeral (['0', '.'] ++ List.replicate count '0' ++ digits)
      (natOfDigits digits * 10 ^ (-(count + digits.length) : Int)) := by
  have fraction : ∀ c ∈ List.replicate count '0' ++ digits, c.isDigit := fun c member =>
    (List.mem_append.mp member).elim isDigit_of_mem_zeros (all c)
  have numeral := numeral_point (List.forall_mem_singleton.mpr (by decide : '0'.isDigit)) fraction
    (List.cons_ne_nil _ _)
  have value : natOfDigits (['0'] ++ (List.replicate count '0' ++ digits)) = natOfDigits digits :=
    natOfDigits_zeros_append (count + 1) digits
  rw [value, List.length_append, List.length_replicate] at numeral
  rw [List.append_assoc]
  exact_mod_cast numeral

theorem numeral_behind (all : ∀ c ∈ digits, c.isDigit) (some : digits ≠ []) (count : Nat)
    (pointZero : Bool) :
    Numeral (digits ++ List.replicate count '0' ++ if pointZero then ['.', '0'] else [])
      (natOfDigits digits * 10 ^ (count : Int)) := by
  have whole : ∀ c ∈ digits ++ List.replicate count '0', c.isDigit := fun c member =>
    (List.mem_append.mp member).elim (all c) isDigit_of_mem_zeros
  have nonempty := List.append_ne_nil_of_left_ne_nil some (List.replicate count '0')
  cases pointZero with
  | true =>
    have numeral := numeral_point whole (List.forall_mem_singleton.mpr (by decide : '0'.isDigit))
      nonempty
    have longer : digits ++ List.replicate count '0' ++ ['0'] =
        digits ++ List.replicate (count + 1) '0' := by
      rw [List.append_assoc, ← List.replicate_succ']
    have value : ((natOfDigits digits * 10 ^ (count + 1) : Nat) : ℚ) * 10 ^ (-(1 : Nat) : Int) =
        natOfDigits digits * 10 ^ (count : Int) := by
      push_cast
      rw [pow_succ, zpow_neg_one, zpow_natCast]
      field_simp
    rw [longer, natOfDigits_append_zeros, List.length_singleton, value] at numeral
    exact numeral
  | false =>
    have numeral := numeral_digits whole nonempty
    rw [natOfDigits_append_zeros] at numeral
    push_cast at numeral
    simpa using numeral

theorem numeral_among (all : ∀ c ∈ digits, c.isDigit) {count : Nat} (positive : 0 < count)
    (inside : count < digits.length) :
    Numeral (digits.take count ++ ['.'] ++ digits.drop count)
      (natOfDigits digits * 10 ^ (count - digits.length : Int)) := by
  have front : digits.take count ≠ [] := by
    apply List.ne_nil_of_length_pos
    rw [List.length_take]
    omega
  have whole : ∀ c ∈ digits.take count, c.isDigit := fun c member =>
    all c (List.mem_of_mem_take member)
  have fraction : ∀ c ∈ digits.drop count, c.isDigit := fun c member =>
    all c (List.mem_of_mem_drop member)
  have numeral := numeral_point whole fraction front
  have power : -((digits.drop count).length : Int) = count - digits.length := by
    rw [List.length_drop]
    omega
  rw [List.take_append_drop, power] at numeral
  rw [List.append_assoc]
  exact numeral

end Digits

theorem toDigits_facts (n : Nat) :
    (∀ c ∈ Nat.toDigits 10 n, c.isDigit) ∧ natOfDigits (Nat.toDigits 10 n) = n ∧
      0 < (Nat.toDigits 10 n).length :=
  ⟨fun _ member => Nat.isDigit_of_mem_toDigits (by decide) (by decide) member,
    Nat.ofDigitChars_ten_toDigits, Nat.length_toDigits_pos⟩

/-- The point is put where it belongs: in front of all digits, behind them, or between. -/
theorem numeral_plain (l : Layout) (d : Decimal) :
    Numeral (l.plain (Nat.toDigits 10 d.digits)
      (d.exponent + (Nat.toDigits 10 d.digits).length - 1)) d.value := by
  obtain ⟨all, value, length⟩ := toDigits_facts d.digits
  generalize Nat.toDigits 10 d.digits = digits at *
  rw [Decimal.value, ← value]
  unfold Layout.plain
  dsimp only
  split
  next front =>
    convert numeral_front all _ using 3
    omega
  split
  next behind =>
    convert numeral_behind all (List.ne_nil_of_length_pos length) _ _ using 3
    omega
  next among =>
    convert numeral_among all (Nat.succ_pos _) (Nat.lt_of_not_le among) using 3
    omega

theorem numeral_scientific (n : Nat) :
    Numeral ((Nat.toDigits 10 n).take 1 ++
        if (Nat.toDigits 10 n).length ≤ 1 then [] else '.' :: (Nat.toDigits 10 n).drop 1)
      (n * 10 ^ (1 - (Nat.toDigits 10 n).length : Int)) := by
  obtain ⟨all, value, length⟩ := toDigits_facts n
  generalize Nat.toDigits 10 n = digits at *
  rw [← value]
  split
  next single =>
    have one : digits.length = 1 := by omega
    convert numeral_digits all (List.ne_nil_of_length_pos length) using 1
    · rw [List.append_nil, List.take_of_length_le single]
    · simp [one]
  next more =>
    convert numeral_among all Nat.one_pos (Nat.lt_of_not_le more) using 1
    · rw [List.append_assoc]
      rfl
    · rw [Nat.cast_one]

end StyleValues.Number
