import Mathlib
import StyleValues.Proofs.Number.ReadBack

/-! The grammar of number literals: a sign, digits around at most one point, and an exponent. A text
is read as a number exactly if it starts with a literal, and then as its value. -/

namespace StyleValues.Number

inductive SignText : List Char → Sign → Prop
  | none : SignText [] .positive
  | plus : SignText ['+'] .positive
  | minus : SignText ['-'] .negative

/-- All digits and points up to the text behind: at least one digit, and at most one point. -/
structure Run (run after : List Char) : Prop where
  chars : ∀ c ∈ run, isDigitOrPoint c
  stops : ∀ c ∈ after.head?, isDigitOrPoint c = false
  digit : ∃ c ∈ run, c.isDigit
  point : run.count '.' ≤ 1

/-- The digits of a run as a whole number, less the places behind the point. -/
def runValue (run : List Char) : ℚ :=
  natOfDigits (run.filter Char.isDigit) /
    10 ^ ((run.dropWhile (· != '.')).filter Char.isDigit).length

/-- What an exponent looks like: a letter, an optional sign and digits. -/
def StartsExponent (cs : List Char) : Prop :=
  ∃ letter front sign digit behind, (letter = 'e' ∨ letter = 'E') ∧ SignText front sign ∧
    digit.isDigit ∧ cs = letter :: (front ++ digit :: behind)

/-- An exponent with all its digits, or none, its power of ten, and the text behind. -/
inductive ExponentText : List Char → Int → List Char → Prop
  | written {letter : Char} {front digits rest : List Char} {sign : Sign}
      (isLetter : letter = 'e' ∨ letter = 'E') (signed : SignText front sign)
      (all : ∀ c ∈ digits, c.isDigit) (some : digits ≠ [])
      (stops : ∀ c ∈ rest.head?, c.isDigit = false) :
      ExponentText (letter :: (front ++ digits)) (sign.apply (natOfDigits digits)) rest
  | absent {rest : List Char} (none : ¬StartsExponent rest) : ExponentText [] 0 rest

theorem splitSign_append {front rest : List Char} {sign : Sign} (signed : SignText front sign)
    (stops : ∀ c ∈ rest.head?, c ≠ '+' ∧ c ≠ '-') : splitSign (front ++ rest) = (sign, rest) := by
  cases signed with
  | plus => rfl
  | minus => rfl
  | none =>
    rw [List.nil_append]
    unfold splitSign
    split
    · exact absurd rfl (stops '+' rfl).1
    · exact absurd rfl (stops '-' rfl).2
    · rfl

theorem exists_signText (cs : List Char) :
    ∃ front, SignText front (splitSign cs).1 ∧ cs = front ++ (splitSign cs).2 := by
  unfold splitSign
  split
  · exact ⟨['+'], .plus, rfl⟩
  · exact ⟨['-'], .minus, rfl⟩
  · exact ⟨[], .none, rfl⟩

theorem ne_sign_of_isDigitOrPoint {c : Char} (char : isDigitOrPoint c) : c ≠ '+' ∧ c ≠ '-' := by
  constructor <;> rintro rfl <;> cases char

theorem splitSign_run {front run : List Char} {sign : Sign} (signed : SignText front sign)
    (chars : ∀ c ∈ run, isDigitOrPoint c) (some : run ≠ []) (tail : List Char) :
    splitSign (front ++ (run ++ tail)) = (sign, run ++ tail) := by
  apply splitSign_append signed
  obtain ⟨c, after, rfl⟩ := List.exists_cons_of_ne_nil some
  intro d first
  cases first
  exact ne_sign_of_isDigitOrPoint (chars c List.mem_cons_self)

section Exponent

variable {cs written rest : List Char} {power : Int}

theorem splitExponent_eq_zero (none : ¬StartsExponent cs) : splitExponent cs = (0, cs) := by
  cases cs with
  | nil => rfl
  | cons letter after =>
    unfold splitExponent
    dsimp only
    rw [if_neg]
    intro exponent
    obtain ⟨isLetter, some⟩ := Bool.and_eq_true_iff.mp exponent
    obtain ⟨front, signed, split⟩ := exists_signText after
    cases unsigned : (splitSign after).2 with
    | nil => simp [unsigned] at some
    | cons digit behind =>
      rw [unsigned, List.takeWhile_cons] at some
      by_cases isDigit : digit.isDigit
      · refine none ⟨letter, front, _, digit, behind, by simpa using isLetter, signed, isDigit, ?_⟩
        rw [← unsigned, ← split]
      · simp [isDigit] at some

theorem splitExponent_eq (exponent : ExponentText written power rest) :
    splitExponent (written ++ rest) = (power, rest) := by
  cases exponent with
  | absent none => exact splitExponent_eq_zero none
  | @written letter front digits _ sign isLetter signed all some stops =>
    obtain ⟨taken, dropped⟩ := Text.takeWhile_append all stops
    have signs := splitSign_run signed
      (fun c member => isDigitOrPoint_of_isDigit (all c member)) some rest
    have letters : (letter == 'e' || letter == 'E') = true := by simpa using isLetter
    rw [List.cons_append, List.append_assoc]
    simp only [splitExponent, signs, taken, dropped, letters]
    simp [some]

theorem exists_exponentText (after : List Char) :
    ∃ written power rest, ExponentText written power rest ∧ after = written ++ rest := by
  by_cases starts : StartsExponent after
  · obtain ⟨letter, front, sign, digit, behind, isLetter, signed, isDigit, rfl⟩ := starts
    refine ⟨letter :: (front ++ (digit :: behind).takeWhile Char.isDigit), _,
      (digit :: behind).dropWhile Char.isDigit, .written isLetter signed
        (fun c member => List.mem_takeWhile_imp member) ?_ ?_, ?_⟩
    · rw [List.takeWhile_cons_of_pos isDigit]
      exact List.cons_ne_nil _ _
    · intro c first
      have stops := List.head?_dropWhile_not Char.isDigit (digit :: behind)
      rw [first] at stops
      simpa using stops
    · rw [List.cons_append, List.append_assoc, List.takeWhile_append_dropWhile]
  · exact ⟨[], 0, after, .absent starts, rfl⟩

end Exponent

section Run

variable {run after : List Char}

theorem eq_digits_or_point (chars : ∀ c ∈ run, isDigitOrPoint c) :
    (∀ c ∈ run, c.isDigit) ∨
      ∃ whole fraction, run = whole ++ '.' :: fraction ∧ (∀ c ∈ whole, c.isDigit) ∧
        ('.' ∉ fraction → ∀ c ∈ fraction, c.isDigit) := by
  have digit {c : Char} (member : c ∈ run) (noPoint : c ≠ '.') : c.isDigit := by
    have char := chars c member
    simpa [isDigitOrPoint, noPoint] using char
  by_cases point : '.' ∈ run
  · right
    obtain ⟨whole, fraction, rfl, absent⟩ := List.eq_append_cons_of_mem point
    refine ⟨whole, fraction, rfl, fun c member => ?_, fun noPoint c member => ?_⟩
    · exact digit (by simp [member]) fun same => absent (same ▸ member)
    · exact digit (by simp [member]) fun same => noPoint (same ▸ member)
  · left
    exact fun c member => digit member fun same => point (same ▸ member)

theorem runValue_digits (all : ∀ c ∈ run, c.isDigit) : runValue run = natOfDigits run := by
  rw [runValue, List.filter_eq_self.mpr all, List.dropWhile_eq_nil_iff.mpr (bne_point all)]
  simp

theorem runValue_point {whole fraction : List Char} (wholeDigits : ∀ c ∈ whole, c.isDigit)
    (fractionDigits : ∀ c ∈ fraction, c.isDigit) :
    runValue (whole ++ '.' :: fraction) =
      natOfDigits (whole ++ fraction) * 10 ^ (-fraction.length : Int) := by
  have behind : (whole ++ '.' :: fraction).dropWhile (· != '.') = '.' :: fraction := by
    rw [List.dropWhile_append_of_pos (bne_point wholeDigits)]
    simp
  have noDigit : ('.').isDigit = false := rfl
  rw [runValue, behind, List.filter_append, List.filter_cons, noDigit,
    List.filter_eq_self.mpr wholeDigits, List.filter_eq_self.mpr fractionDigits, zpow_neg,
    zpow_natCast, ← div_eq_mul_inv]
  rfl

theorem Run.exists_pointed? (valid : Run run after) :
    ∃ d, pointed? run = some d ∧ d.value = runValue run := by
  obtain ⟨c, member, isDigit⟩ := valid.digit
  rcases eq_digits_or_point valid.chars with all | ⟨whole, fraction, rfl, wholeDigits, rest⟩
  · refine ⟨_, pointed?_digits all (List.ne_nil_of_mem member), ?_⟩
    rw [runValue_digits all, Decimal.value, zpow_zero, mul_one]
  · have absent : '.' ∉ fraction := by
      have count := valid.point
      rw [List.count_append, List.count_cons_self] at count
      exact List.count_eq_zero.mp (by omega)
    have fractionDigits := rest absent
    have some : whole ++ fraction ≠ [] := by
      intro none
      obtain ⟨rfl, rfl⟩ := List.append_eq_nil_iff.mp none
      cases List.mem_singleton.mp member
      cases isDigit
    refine ⟨_, pointed?_point wholeDigits fractionDigits some, ?_⟩
    rw [runValue_point wholeDigits fractionDigits]
    rfl

theorem run_of_pointed? (chars : ∀ c ∈ run, isDigitOrPoint c)
    (stops : ∀ c ∈ after.head?, isDigitOrPoint c = false) {d : Decimal}
    (read : pointed? run = some d) : Run run after := by
  rcases eq_digits_or_point chars with all | ⟨whole, fraction, rfl, wholeDigits, rest⟩
  · have noPoint : '.' ∉ run := fun member => ne_point_of_isDigit (all _ member) rfl
    cases run with
    | nil => cases read
    | cons c behind =>
      exact ⟨chars, stops, ⟨c, List.mem_cons_self, all c List.mem_cons_self⟩,
        (List.count_eq_zero.mpr noPoint).le.trans zero_le_one⟩
  · rw [pointed?_append wholeDigits] at read
    split at read
    · cases read
    rename_i valid
    obtain ⟨absent, some⟩ := not_or.mp valid
    refine ⟨chars, stops, ?_, ?_⟩
    · obtain ⟨c, behind, split⟩ := List.exists_cons_of_ne_nil some
      have member : c ∈ whole ++ fraction := split ▸ List.mem_cons_self
      rcases List.mem_append.mp member with front | back
      · exact ⟨c, by simp [front], wholeDigits c front⟩
      · exact ⟨c, by simp [back], rest absent c back⟩
    · have noPoint : '.' ∉ whole := fun member => ne_point_of_isDigit (wholeDigits _ member) rfl
      rw [List.count_append, List.count_cons_self, List.count_eq_zero.mpr noPoint,
        List.count_eq_zero.mpr absent]

end Run

section Literal

variable {front run after : List Char} {sign : Sign}

/-- What starts with a literal is read as the double nearest to its value. -/
theorem Run.exists_literal? (valid : Run run after) (signed : SignText front sign) :
    ∃ written power rest x, after = written ++ rest ∧ ExponentText written power rest ∧
      Rounded sign (runValue run * 10 ^ power) x ∧
      literal? (front ++ (run ++ after)) = some (x, rest) := by
  obtain ⟨written, power, rest, exponent, split⟩ := exists_exponentText after
  obtain ⟨d, read, value⟩ := valid.exists_pointed?
  obtain ⟨taken, dropped⟩ := Text.takeWhile_append valid.chars valid.stops
  obtain ⟨c, member, -⟩ := valid.digit
  have signs := splitSign_run signed valid.chars (List.ne_nil_of_mem member) after
  have behind := splitExponent_eq exponent
  rw [← split] at behind
  let scaled : Decimal := { d with exponent := d.exponent + power }
  have scaledValue : scaled.value = runValue run * 10 ^ power := by
    rw [← value, Decimal.value, Decimal.value, zpow_add₀ (by norm_num), mul_assoc]
  refine ⟨written, power, rest, scaled.toFloat sign, split, exponent,
    scaledValue ▸ scaled.rounded_toFloat sign, ?_⟩
  unfold literal?
  simp only [signs, taken, dropped, read, behind]
  rfl

theorem exists_run_of_literal? {cs : List Char} {read : Float × List Char}
    (found : literal? cs = some read) :
    ∃ front sign run after, SignText front sign ∧ Run run after ∧ cs = front ++ (run ++ after) := by
  obtain ⟨front, signed, split⟩ := exists_signText cs
  refine ⟨front, _, (splitSign cs).2.takeWhile isDigitOrPoint,
    (splitSign cs).2.dropWhile isDigitOrPoint, signed, ?_, ?_⟩
  · rw [literal?_eq, Option.map_eq_some_iff] at found
    obtain ⟨d, found, -⟩ := found
    obtain ⟨d, pointed, -⟩ := Option.map_eq_some_iff.mp found
    refine run_of_pointed? (fun c member => List.mem_takeWhile_imp member) ?_ pointed
    intro c first
    have stops := List.head?_dropWhile_not isDigitOrPoint (splitSign cs).2
    rw [first] at stops
    simpa using stops
  · rw [List.takeWhile_append_dropWhile]
    exact split

end Literal

end StyleValues.Number
