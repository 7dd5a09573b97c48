import Mathlib
import StyleValues.Dimension.Reader
import StyleValues.Proofs.Number.Cut
import StyleValues.Proofs.Number.Grammar

/-! Which texts are read as dimensions, and as which: a number literal with units behind it. -/

namespace StyleValues.Dimension

open Number

section Trimmed

variable {text : String} {cs : List Char} (trimmed : Text.trimmed text.toList = cs)
include trimmed

theorem parse_of_literal? {x : Float} {rest : List Char} (found : literal? cs = some (x, rest)) :
    parse text = .ok (.of x (.parse (.ofList (Text.trimmed rest)))) := by
  unfold parse
  dsimp only
  rw [trimmed, found]
  rfl

theorem parse_of_literal?_eq_none (none : literal? cs = none) :
    parse text = .error (.unreadable (.ofList cs)) := by
  unfold parse
  dsimp only
  rw [trimmed, none]
  rfl

/-- A text is read exactly if it starts, blanks aside, with a literal, which is then taken in full
and rounded correctly. What stands behind are the units. Told in bytes, the literal ends between two
characters, and so does all else that is taken for a number. -/
theorem parse_grammar :
    ((∃ d, parse text = .ok d) ↔ ∃ front sign run after,
      SignText front sign ∧ Run run after ∧ cs = front ++ (run ++ after)) ∧
    ((∃ d, parse text = .ok d) ∨ parse text = .error (.unreadable (.ofList cs))) ∧
    (∀ front sign run after, SignText front sign → Run run after →
      cs = front ++ (run ++ after) → ∃ written power rest x,
        after = written ++ rest ∧ ExponentText written power rest ∧
        (∀ y, Rounded sign (runValue run * 10 ^ power) y ↔ y = x) ∧
        parse text = .ok (.of x (.parse (.ofList (Text.trimmed rest)))) ∧
        numberLength? (bytes (.ofList cs)) =
          some (String.ofList (front ++ (run ++ written))).utf8ByteSize) ∧
    ∀ n, numberLength? (bytes (.ofList cs)) = some n →
      String.Pos.Raw.IsValid (.ofList cs) ⟨n⟩ := by
  refine ⟨⟨?_, ?_⟩, ?_, ?_, fun n => isValid_of_numberLength?⟩
  · rintro ⟨d, done⟩
    cases found : literal? cs with
    | some read => exact exists_run_of_literal? found
    | none =>
      rw [parse_of_literal?_eq_none trimmed found] at done
      cases done
  · rintro ⟨front, sign, run, after, signed, valid, rfl⟩
    obtain ⟨written, power, rest, x, -, -, -, found⟩ := valid.exists_literal? signed
    exact ⟨_, parse_of_literal? trimmed found⟩
  · cases found : literal? cs with
    | some read => exact .inl ⟨_, parse_of_literal? trimmed found⟩
    | none => exact .inr (parse_of_literal?_eq_none trimmed found)
  · rintro front sign run after signed valid rfl
    obtain ⟨written, power, rest, x, rfl, exponent, rounded, found⟩ := valid.exists_literal? signed
    refine ⟨written, power, rest, x, rfl, exponent, fun y => ⟨fun other => ?_, fun same => ?_⟩,
      parse_of_literal? trimmed found, ?_⟩
    · exact other.unique rounded
    · exact same ▸ rounded
    · have regroup : front ++ (run ++ (written ++ rest)) = front ++ (run ++ written) ++ rest := by
        rw [List.append_assoc, List.append_assoc]
      rw [regroup] at found ⊢
      exact numberLength?_of_literal? found

end Trimmed

/-- A letter and a sign without digits are units, and a character of three bytes is one of them. -/
theorem parse_grammar_no_exponent :
    Text.trimmed " -.5e+€ ".toList = "-.5e+€".toList ∧
      SignText ['-'] .negative ∧ Run ['.', '5'] ['e', '+', '€'] ∧
      (∃ x, Rounded .negative (1 / 2) x ∧
        parse " -.5e+€ " = .ok (.of x (.parse "e+€"))) ∧
      numberLength? (bytes "-.5e+€") = some 3 ∧ String.Pos.Raw.IsValid "-.5e+€" ⟨3⟩ := by
  have trimmed : Text.trimmed " -.5e+€ ".toList = "-.5e+€".toList := by decide
  have valid : Run ['.', '5'] ['e', '+', '€'] := by
    refine ⟨by simp [isDigitOrPoint], ?_, ⟨'5', by decide, by decide⟩, by decide⟩
    rintro c ⟨⟩
    decide
  obtain ⟨-, -, reads, cut⟩ := parse_grammar trimmed
  obtain ⟨written, power, rest, x, split, exponent, rounded, parsed, length⟩ :=
    reads ['-'] .negative _ _ .minus valid rfl
  have none : splitExponent ['e', '+', '€'] = (0, ['e', '+', '€']) := by decide
  have behind := splitExponent_eq exponent
  rw [← split, none] at behind
  obtain ⟨rfl, rfl⟩ := Prod.mk.inj behind
  obtain rfl : written = [] := List.append_left_eq_self.mp split.symm
  rw [String.ofList_toList] at length cut
  have value : runValue ['.', '5'] * 10 ^ (0 : Int) = 1 / 2 := by
    have digits : natOfDigits (['.', '5'].filter Char.isDigit) = 5 := by decide
    have places : ((['.', '5'].dropWhile (· != '.')).filter Char.isDigit).length = 1 := by decide
    rw [runValue, digits, places]
    norm_num
  exact ⟨trimmed, .minus, valid, ⟨x, value ▸ (rounded x).mpr rfl, parsed⟩, length, cut 3 length⟩

end StyleValues.Dimension
