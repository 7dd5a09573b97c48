import Mathlib
import StyleValues.Proofs.Number.Numeral
import StyleValues.Proofs.Number.Shortest
import StyleValues.Proofs.Text.Runs

/-! Texts of numbers read back, whatever text stands behind them that is no part of a number. -/

namespace StyleValues.Number

/-- Whether a number in front of the text goes on into it: a digit, a point, or the letter of an
exponent with an optional sign and a digit behind it. -/
def continuesNumber : List Char → Bool
  | [] => false
  | c :: rest => isDigitOrPoint c ||
      (c == 'e' || c == 'E') && (splitSign rest).2.head?.any Char.isDigit

def decimal? (cs : List Char) : Option (Decimal × List Char) :=
  (pointed? (cs.takeWhile isDigitOrPoint)).map fun d =>
    let (power, rest) := splitExponent (cs.dropWhile isDigitOrPoint)
    ({ d with exponent := d.exponent + power }, rest)

theorem literal?_eq (cs : List Char) :
    literal? cs = (decimal? (splitSign cs).2).map fun read =>
      (read.1.toFloat (splitSign cs).1, read.2) := by
  unfold literal? decimal?
  dsimp only
  cases pointed? ((splitSign cs).2.takeWhile isDigitOrPoint) <;> rfl

theorem stops_of_not_continues {rest : List Char} (apart : continuesNumber rest = false) :
    ∀ c ∈ rest.head?, isDigitOrPoint c = false := by
  cases rest with
  | nil => nofun
  | cons c rest =>
    intro first same
    cases same
    exact (Bool.or_eq_false_iff.mp apart).1

theorem splitExponent_of_not_continues {rest : List Char} (apart : continuesNumber rest = false) :
    splitExponent rest = (0, rest) := by
  cases rest with
  | nil => rfl
  | cons c after =>
    have exponent := (Bool.or_eq_false_iff.mp apart).2
    unfold splitExponent
    dsimp only
    rcases Bool.and_eq_false_iff.mp exponent with letter | digit
    · rw [letter]
      rfl
    · rw [(Text.takeWhile_eq_nil ((Option.any_eq_false ..).mp digit)).1]
      simp

def powerText (power : Int) : List Char :=
  ['e', if power < 0 then '-' else '+'] ++ Nat.toDigits 10 power.natAbs

theorem scientific_eq (digits : List Char) (leading : Int) :
    scientific digits leading = digits.take 1 ++
      (if digits.length ≤ 1 then [] else '.' :: digits.drop 1) ++ powerText leading := by
  rw [scientific, powerText, List.append_assoc _ ['e', _]]

theorem splitExponent_powerText (power : Int) {rest : List Char}
    (apart : continuesNumber rest = false) :
    splitExponent (powerText power ++ rest) = (power, rest) := by
  unfold powerText
  obtain ⟨all, value, length⟩ := toDigits_facts power.natAbs
  generalize Nat.toDigits 10 power.natAbs = digits at *
  have stops : ∀ c ∈ rest.head?, c.isDigit = false := fun c first =>
    (Bool.or_eq_false_iff.mp (stops_of_not_continues apart c first)).1
  obtain ⟨taken, dropped⟩ := Text.takeWhile_append all stops
  have some : digits ≠ [] := List.ne_nil_of_length_pos length
  have sign : splitSign ((if power < 0 then '-' else '+') :: (digits ++ rest)) =
      (if power < 0 then .negative else .positive, digits ++ rest) := by
    split <;> rfl
  have signedValue := apply_natAbs power
  simp only [List.cons_append, List.nil_append, splitExponent, sign, taken, dropped, value,
    signedValue]
  simp [some]

theorem head_powerText (power : Int) (rest : List Char) :
    ∀ c ∈ (powerText power ++ rest).head?, isDigitOrPoint c = false := by
  rintro c first
  cases first
  decide

theorem decimal?_of_numeral {run tail rest : List Char} {q : ℚ} {power : Int}
    (numeral : Numeral run q) (stops : ∀ c ∈ tail.head?, isDigitOrPoint c = false)
    (split : splitExponent tail = (power, rest)) :
    ∃ d : Decimal, d.value = q * 10 ^ power ∧ decimal? (run ++ tail) = some (d, rest) := by
  obtain ⟨d, pointed, value⟩ := numeral.reads
  obtain ⟨taken, dropped⟩ := Text.takeWhile_append numeral.chars stops
  refine ⟨{ d with exponent := d.exponent + power }, ?_, ?_⟩
  · rw [← value, Decimal.value, Decimal.value, zpow_add₀ (by norm_num), mul_assoc]
  · unfold decimal?
    rw [taken, dropped, pointed, split]
    rfl

theorem decimal?_layout (l : Layout) (d : Decimal) {rest : List Char}
    (apart : continuesNumber rest = false) :
    ∃ e : Decimal, e.value = d.value ∧ decimal? (l.decimal d ++ rest) = some (e, rest) := by
  unfold Layout.decimal
  dsimp only
  split
  · obtain ⟨e, value, read⟩ := decimal?_of_numeral (numeral_plain l d)
      (stops_of_not_continues apart) (splitExponent_of_not_continues apart)
    refine ⟨e, ?_, read⟩
    rw [value, zpow_zero, mul_one]
  · generalize counts : d.exponent + (Nat.toDigits 10 d.digits).length - 1 = leading
    obtain ⟨e, value, read⟩ := decimal?_of_numeral (numeral_scientific d.digits)
      (head_powerText leading rest) (splitExponent_powerText leading apart)
    refine ⟨e, ?_, ?_⟩
    · rw [value, Decimal.value, mul_assoc, ← zpow_add₀ (by norm_num)]
      congr 2
      omega
    · rw [scientific_eq, List.append_assoc]
      exact read

theorem Layout.decimal_head (l : Layout) (d : Decimal) :
    ∃ c rest, l.decimal d = c :: rest ∧ c.isDigit := by
  unfold decimal
  dsimp only
  split
  · exact (numeral_plain l d).head
  · obtain ⟨c, rest, front, digit⟩ := (numeral_scientific d.digits).head
    rw [scientific_eq, front]
    exact ⟨c, _, rfl, digit⟩

theorem literal?_signed (sign : Sign) {cs rest : List Char} {d : Decimal}
    (head : ∃ c after, cs = c :: after ∧ c.isDigit) (read : decimal? cs = some (d, rest)) :
    literal? ((signed sign "").toList ++ cs) = some (d.toFloat sign, rest) := by
  have split : splitSign ((signed sign "").toList ++ cs) = (sign, cs) := by
    cases sign with
    | negative => rfl
    | positive =>
      obtain ⟨c, after, rfl, digit⟩ := head
      change splitSign (c :: after) = _
      unfold splitSign
      split
      next same =>
        cases same
        cases digit
      next same =>
        cases same
        cases digit
      next => rfl
  rw [literal?_eq, split, read]
  rfl

theorem toList_signed (sign : Sign) (text : String) :
    (signed sign text).toList = (signed sign "").toList ++ text.toList := by
  cases sign with
  | negative => exact String.toList_append
  | positive => rfl

def isNumberChar (c : Char) : Bool :=
  isDigitOrPoint c || c == 'e' || c == '+' || c == '-'

theorem isNumberChar_of_isDigitOrPoint {c : Char} (char : isDigitOrPoint c) : isNumberChar c := by
  simp [isNumberChar, char]

theorem isNumberChar_powerText (power : Int) : ∀ c ∈ powerText power, isNumberChar c := by
  intro c member
  rcases List.mem_append.mp member with letter | digit
  · have letters : ∀ c ∈ ['e', if power < 0 then '-' else '+'], isNumberChar c := by
      split <;> simp [isNumberChar]
    exact letters c letter
  · have digit : c.isDigit := (toDigits_facts power.natAbs).1 c digit
    exact isNumberChar_of_isDigitOrPoint (isDigitOrPoint_of_isDigit digit)

theorem isBlank_of_isNumberChar {c : Char} (char : isNumberChar c) : Text.isBlank c = false := by
  simp only [isNumberChar, isDigitOrPoint, Bool.or_eq_true, beq_iff_eq] at char
  rcases char with (((digit | rfl) | rfl) | rfl) | rfl
  · have bounds := Char.isDigit_iff_toNat.mp digit
    change 48 ≤ c.toNat ∧ c.toNat ≤ 57 at bounds
    have apart : ∀ range ∈ Text.blankRanges, 57 < range.1 ∨ range.2 < 48 := by decide
    refine List.any_eq_false.mpr fun range member => ?_
    have := apart range member
    simp only [Bool.and_eq_true, decide_eq_true_eq]
    omega
  all_goals decide

namespace Layout

variable (l : Layout)

/-- The double that the text of a double stands for: a zero may have lost its sign. -/
def readBack (x : Float) : Float :=
  match parts x with
  | .zero sign => ofParts (.zero (if l.signedZero then sign else .positive))
  | _ => x

theorem literal?_zero (sign : Sign) {rest : List Char} (apart : continuesNumber rest = false) :
    literal? ((signed sign (if l.pointZero then "0.0" else "0")).toList ++ rest) =
      some (ofParts (.zero sign), rest) := by
  have zero : ∀ c ∈ ['0'], c.isDigit := List.forall_mem_singleton.mpr (by decide)
  have numeral := numeral_behind zero (List.cons_ne_nil _ _) 0 l.pointZero
  obtain ⟨d, value, read⟩ := decimal?_of_numeral numeral (stops_of_not_continues apart)
    (splitExponent_of_not_continues apart)
  have text : (if l.pointZero then "0.0" else "0").toList =
      ['0'] ++ List.replicate 0 '0' ++ if l.pointZero then ['.', '0'] else [] := by
    cases l.pointZero <;> rfl
  have noDigits : d.digits = 0 := by
    have digits : natOfDigits ['0'] = 0 := rfl
    rw [Decimal.value, digits, Nat.cast_zero, zero_mul, zero_mul] at value
    exact_mod_cast (mul_eq_zero_iff_right (zpow_ne_zero d.exponent (by norm_num))).mp value
  have float : d.toFloat sign = ofParts (.zero sign) := by
    rw [Decimal.toFloat, if_pos (.inl noDigits)]
  rw [toList_signed, List.append_assoc, text, ← float]
  exact literal?_signed sign ⟨'0', _, rfl, by decide⟩ read

/-- The text of a finite double is read as that double, up to the text behind. -/
theorem literal?_text {x : Float} (finite : isFinite x) {rest : List Char}
    (apart : continuesNumber rest = false) :
    literal? ((l.text x).toList ++ rest) = some (l.readBack x, rest) := by
  unfold text readBack
  rcases cases_of_isFinite finite with ⟨sign, same⟩ | ⟨sign, mantissa, exponent, positive, same⟩
  · rw [same]
    exact l.literal?_zero _ apart
  · obtain ⟨d, value, read⟩ := decimal?_layout l (shortest l.tie mantissa exponent) apart
    obtain ⟨c, after, front, digit⟩ := l.decimal_head (shortest l.tie mantissa exponent)
    have head : ∃ c after, l.decimal (shortest l.tie mantissa exponent) ++ rest = c :: after ∧
        c.isDigit := ⟨c, after ++ rest, by rw [front]; rfl, digit⟩
    rw [same]
    dsimp only
    rw [toList_signed, String.toList_ofList, List.append_assoc, literal?_signed sign head read,
      toFloat_of_value_eq_shortest same value]

theorem isNumberChar_decimal (d : Decimal) : ∀ c ∈ l.decimal d, isNumberChar c := by
  unfold decimal
  dsimp only
  split
  · intro c member
    exact isNumberChar_of_isDigitOrPoint ((numeral_plain l d).chars c member)
  · intro c member
    rw [scientific_eq] at member
    rcases List.mem_append.mp member with mantissa | power
    · exact isNumberChar_of_isDigitOrPoint ((numeral_scientific d.digits).chars c mantissa)
    · exact isNumberChar_powerText _ c power

theorem isNumberChar_text {x : Float} (finite : isFinite x) :
    ∀ c ∈ (l.text x).toList, isNumberChar c := by
  have signChar (sign : Sign) : ∀ c ∈ (signed sign "").toList, isNumberChar c := by
    cases sign <;> simp [signed, isNumberChar]
  have zeroChar : ∀ c ∈ (if l.pointZero then "0.0" else "0").toList, isNumberChar c := by
    cases l.pointZero <;> simp [isNumberChar, isDigitOrPoint]
  intro c
  unfold text
  rcases cases_of_isFinite finite with ⟨sign, same⟩ | ⟨sign, mantissa, exponent, positive, same⟩
  · rw [same, toList_signed, List.mem_append]
    exact fun member => member.elim (signChar _ c) (zeroChar c)
  · rw [same, toList_signed, List.mem_append, String.toList_ofList]
    exact fun member => member.elim (signChar _ c) (l.isNumberChar_decimal _ c)

theorem tight_text {x : Float} (finite : isFinite x) : Text.Tight (l.text x).toList :=
  Text.tight_of_forall fun c member => isBlank_of_isNumberChar (l.isNumberChar_text finite c member)

theorem text_ne_empty {x : Float} (finite : isFinite x) : (l.text x).toList ≠ [] := by
  have apart : continuesNumber [] = false := rfl
  have read := l.literal?_text finite apart
  rw [List.append_nil] at read
  intro empty
  rw [empty] at read
  cases read

end Layout

end StyleValues.Number
