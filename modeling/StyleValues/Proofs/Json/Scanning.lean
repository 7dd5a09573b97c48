import Mathlib.Tactic.IntervalCases
import StyleValues.Json.Token
import StyleValues.Json.Writer
import StyleValues.Proofs.Text.Runs

/-! The words and signs that are found again in what is written: strings through their escapes,
numbers and words up to what ends them, and nothing in the space between. -/

namespace StyleValues

namespace JsonNumber

open JsonToken (isNumberChar)

/-- The number that is read from its text is the same. This holds of all integers, and of the
doubles for which the reader, which rounds twice, happens to find the nearest one. -/
def Kept (n : JsonNumber) : Prop := parse? n.text.toList = some n

instance (n : JsonNumber) : Decidable n.Kept := inferInstanceAs (Decidable (_ = _))

def Takes (cs rest : List Char) : Prop := ∃ front, cs = front ++ rest ∧ ∀ c ∈ front, isNumberChar c

theorem isNumberChar_of_isDigit {c : Char} (digit : c.isDigit) : isNumberChar c := by
  simp [isNumberChar, digit]

section Takes

variable {cs middle rest : List Char} {c : Char}

theorem Takes.refl (cs : List Char) : Takes cs cs := ⟨[], rfl, List.forall_mem_nil _⟩

theorem Takes.cons (char : isNumberChar c) (behind : Takes cs rest) : Takes (c :: cs) rest := by
  obtain ⟨front, rfl, chars⟩ := behind
  exact ⟨c :: front, rfl, List.forall_mem_cons.mpr ⟨char, chars⟩⟩

theorem Takes.trans (first : Takes cs middle) (second : Takes middle rest) : Takes cs rest := by
  obtain ⟨front, rfl, chars⟩ := first
  obtain ⟨behind, rfl, others⟩ := second
  exact ⟨front ++ behind, (List.append_assoc ..).symm, List.forall_mem_append.mpr ⟨chars, others⟩⟩

theorem takes_digits? {digits : List Char} (read : digits? cs = some (digits, rest)) :
    Takes cs rest := by
  unfold digits? at read
  split at read
  · cases read
  · cases read
    refine ⟨cs.takeWhile Char.isDigit, List.takeWhile_append_dropWhile.symm, fun c member => ?_⟩
    exact isNumberChar_of_isDigit (List.mem_takeWhile_imp member)

theorem takes_fraction? {fraction : Option (List Char)}
    (read : fraction? cs = some (fraction, rest)) : Takes cs rest := by
  unfold fraction? at read
  split at read
  · obtain ⟨⟨digits, behind⟩, found, same⟩ := Option.map_eq_some_iff.mp read
    cases same
    exact (takes_digits? found).cons (by decide)
  · cases read
    exact .refl cs

theorem takes_splitSign (cs : List Char) : Takes cs (Number.splitSign cs).2 := by
  unfold Number.splitSign
  split
  · exact .cons (by decide) (.refl _)
  · exact .cons (by decide) (.refl _)
  · exact .refl _

theorem takes_exponent? {exponent : Option Int} (read : exponent? cs = some (exponent, rest)) :
    Takes cs rest := by
  unfold exponent? at read
  split at read
  · cases read
    exact .refl []
  · split at read
    · rename_i letter
      obtain ⟨⟨digits, behind⟩, found, same⟩ := Option.map_eq_some_iff.mp read
      cases same
      refine ((takes_splitSign _).trans (takes_digits? found)).cons ?_
      rcases letter with rfl | rfl <;> decide
    · cases read
      exact .refl _

theorem takes_spelling {spelling : Spelling} (read : Spelling.parse? cs = some spelling) :
    Takes cs [] := by
  obtain ⟨⟨whole, behind⟩, isWhole, read⟩ := Option.bind_eq_some_iff.mp read
  obtain ⟨⟨fraction, after⟩, isFraction, read⟩ := Option.bind_eq_some_iff.mp read
  obtain ⟨⟨exponent, end_⟩, isExponent, read⟩ := Option.bind_eq_some_iff.mp read
  dsimp only at read
  split at read
  · rename_i whole
    rw [whole.1] at isExponent
    exact (takes_digits? isWhole).trans ((takes_fraction? isFraction).trans
      (takes_exponent? isExponent))
  · cases read

/-- All of a text that is read as a number belongs to it. -/
theorem takes_of_parse? {n : JsonNumber} (read : parse? cs = some n) : Takes cs [] := by
  unfold parse? at read
  split at read
  · obtain ⟨spelling, found, -⟩ := Option.bind_eq_some_iff.mp read
    exact (takes_spelling found).cons (by decide)
  · obtain ⟨spelling, found, -⟩ := Option.bind_eq_some_iff.mp read
    exact takes_spelling found

end Takes

theorem eq_zero_of_head_toDigits (n : Nat) (zero : (Nat.toDigits 10 n).head? = some '0') :
    n = 0 := by
  induction n using Nat.strongRecOn with
  | ind n ih =>
    rw [Nat.toDigits_eq_if (by decide)] at zero
    split at zero
    · rename_i small
      interval_cases n <;> first | rfl | cases zero
    · rename_i large
      have positive : 0 < n / 10 := Nat.div_pos (Nat.le_of_not_lt large) (by decide)
      have first := List.isSome_head?.mpr (Nat.toDigits_ne_nil (b := 10) (n := n / 10))
      rw [List.head?_append, Option.or_of_isSome first] at zero
      exact absurd (ih (n / 10) (by omega) zero) (Nat.ne_of_gt positive)

theorem spelling_toDigits (n : Nat) :
    Spelling.parse? (Nat.toDigits 10 n) = some ⟨Nat.toDigits 10 n, none, none⟩ := by
  have digits : ∀ c ∈ Nat.toDigits 10 n, c.isDigit := fun c member =>
    Nat.isDigit_of_mem_toDigits (by decide) (by decide) member
  have whole : digits? (Nat.toDigits 10 n) = some (Nat.toDigits 10 n, []) := by
    unfold digits?
    rw [List.takeWhile_eq_self_iff.mpr digits, List.dropWhile_eq_nil_iff.mpr digits]
    split
    · rename_i none
      exact absurd none Nat.toDigits_ne_nil
    · rfl
  have single : (Nat.toDigits 10 n).head? = some '0' → (Nat.toDigits 10 n).length = 1 := by
    intro zero
    rw [eq_zero_of_head_toDigits n zero]
    rfl
  rw [Spelling.parse?, whole]
  exact if_pos ⟨rfl, single⟩

theorem integer?_toDigits (sign : Number.Sign) (n : Nat) :
    Spelling.integer? sign ⟨Nat.toDigits 10 n, none, none⟩ =
      match sign with
      | .positive => if n < 2 ^ 64 then some (n : Int) else none
      | .negative => if 0 < n ∧ n ≤ 2 ^ 63 then some (-n : Int) else none := by
  have value : Number.natOfDigits (Nat.toDigits 10 n) = n := Nat.ofDigitChars_ten_toDigits
  unfold Spelling.integer?
  rw [value]
  cases sign <;> rfl

theorem parse?_toDigits {n : Nat} (fits : n < 2 ^ 64) :
    parse? (Nat.toDigits 10 n) = some (.integer n) := by
  have unsigned : parse? (Nat.toDigits 10 n) =
      (Spelling.parse? (Nat.toDigits 10 n)).bind (Spelling.number? .positive) := by
    rw [parse?]
    intro cs same
    have digit : '-'.isDigit := by
      apply Nat.isDigit_of_mem_toDigits (b := 10) (n := n) (by decide) (by decide)
      rw [same]
      exact List.mem_cons_self
    cases digit
  rw [unsigned, spelling_toDigits, Option.bind_some, Spelling.number?, integer?_toDigits]
  dsimp only
  rw [if_pos fits]

theorem parse?_minus_toDigits {n : Nat} (positive : 0 < n) (fits : n ≤ 2 ^ 63) :
    parse? ('-' :: Nat.toDigits 10 n) = some (.integer (-n)) := by
  rw [parse?, spelling_toDigits, Option.bind_some, Spelling.number?, integer?_toDigits]
  dsimp only
  rw [if_pos ⟨positive, fits⟩]

theorem kept_integer {n : Int} (low : -2 ^ 63 ≤ n) (high : n < 2 ^ 64) : (integer n).Kept := by
  change parse? (toString n).toList = _
  rw [Int.toString_eq_repr, Int.repr_eq_if]
  split
  · rename_i natural
    rw [Nat.toList_repr, parse?_toDigits (by omega), Int.toNat_of_nonneg natural]
  · rename_i negative
    rw [String.toList_append, Nat.toList_repr]
    have read := parse?_minus_toDigits (n := (-n).toNat) (by omega) (by omega)
    rw [Int.toNat_of_nonneg (by omega), Int.neg_neg] at read
    exact read

end JsonNumber

namespace JsonToken

section Strings

open Json (escaped)

theorem codes?_control (rest : List Char) : ∀ n < 0x20,
    codes? (escaped (Char.ofNat n) ++ rest) = (codes? rest).map (prepend n) := by
  intro n control
  interval_cases n <;> rfl

theorem codes?_plain {c : Char} (quote : c ≠ '"') (backslash : c ≠ '\\') (plain : 0x20 ≤ c.toNat)
    (rest : List Char) : codes? (c :: rest) = (codes? rest).map (prepend c.toNat) := by
  rw [codes?]
  · exact if_neg (Nat.not_lt.mpr plain)
  · exact quote
  · exact fun _ _ _ _ _ same => (backslash same).elim
  · exact fun _ _ same => (backslash same).elim

theorem codes?_escaped (c : Char) (rest : List Char) :
    codes? (escaped c ++ rest) = (codes? rest).map (prepend c.toNat) := by
  by_cases quote : c = '"'
  · subst quote
    rfl
  by_cases backslash : c = '\\'
  · subst backslash
    rfl
  by_cases control : c.toNat < 0x20
  · have read := codes?_control rest c.toNat control
    rwa [Char.ofNat_toNat] at read
  · have plain : escaped c = [c] := by
      have other (d : Char) (low : d.toNat < 0x20) : c ≠ d := fun same => control (same ▸ low)
      unfold escaped
      rw [if_neg (not_or.mpr ⟨quote, backslash⟩), if_neg (other _ (by decide)),
        if_neg (other _ (by decide)), if_neg (other _ (by decide)), if_neg (other _ (by decide)),
        if_neg (other _ (by decide)), if_neg control]
    rw [plain]
    exact codes?_plain quote backslash (Nat.not_lt.mp control) rest

theorem codes?_flatMap_escaped (cs rest : List Char) :
    codes? (cs.flatMap escaped ++ '"' :: rest) = some (cs.map Char.toNat, rest) := by
  induction cs with
  | nil => rfl
  | cons c cs ih =>
    rw [List.flatMap_cons, List.append_assoc, codes?_escaped, ih]
    rfl

theorem joinSurrogates?_map_toNat (cs : List Char) :
    joinSurrogates? (cs.map Char.toNat) = some cs := by
  induction cs with
  | nil => rfl
  | cons c cs ih =>
    have valid : c.toNat < 0xD800 ∨ 0xDFFF < c.toNat ∧ c.toNat < 0x110000 := c.valid
    rw [List.map_cons, joinSurrogates?.eq_def]
    dsimp only
    rw [if_neg (by omega), if_neg (by omega), ih, Char.ofNat_toNat]
    rfl

end Strings

/-- What ends a number or a word. -/
def Ends (rest : List Char) : Prop :=
  ∀ c ∈ rest.head?, isNumberChar c = false ∧ c.isAlpha = false

theorem ends_cons {c : Char} (number : isNumberChar c = false) (letter : c.isAlpha = false)
    (rest : List Char) : Ends (c :: rest) := by
  intro d first
  cases first
  exact ⟨number, letter⟩

section Scan

variable {c : Char} {cs rest : List Char}

theorem scan?_space (space : isSpace c) (rest : List Char) : scan? (c :: rest) = scan? rest := by
  rw [scan?, if_pos space]

theorem scan?_spaces (spaces : ∀ c ∈ cs, isSpace c) (rest : List Char) :
    scan? (cs ++ rest) = scan? rest := by
  induction cs with
  | nil => rfl
  | cons c cs ih =>
    obtain ⟨first, others⟩ := List.forall_mem_cons.mp spaces
    rw [List.cons_append, scan?_space first, ih others]

theorem scan?_sign {sign : JsonToken} (isSign : sign? c = some sign) (rest : List Char) :
    scan? (c :: rest) = (scan? rest).map (sign :: ·) := by
  have other : isSpace c = false ∧ c ≠ '"' ∧ isNumberChar c = false ∧ c.isAlpha = false := by
    unfold sign? at isSign
    split_ifs at isSign with h h h h h h <;> subst h <;> decide
  rw [scan?, if_neg (by simp [other.1]), if_neg other.2.1, if_neg (by simp [other.2.2.1]),
    if_neg (by simp [other.2.2.2]), isSign]
  cases scan? rest <;> rfl

theorem scan?_quoted (text : String) (rest : List Char) :
    scan? ((Json.quoted text).toList ++ rest) = (scan? rest).map (.string text :: ·) := by
  have codes := codes?_flatMap_escaped text.toList rest
  have chars : (Json.quoted text).toList ++ rest =
      '"' :: (text.toList.flatMap Json.escaped ++ '"' :: rest) := by
    simp [Json.quoted]
  rw [chars, scan?, if_neg (by decide), if_pos rfl]
  split
  · rename_i found
    rw [codes] at found
    cases found
    rw [joinSurrogates?_map_toNat]
    cases scan? rest
    · rfl
    · exact congrArg (fun text => some (JsonToken.string text :: _)) String.ofList_toList
  · rename_i lost
    rw [codes] at lost
    cases lost

theorem apart_of_run (run : isNumberChar c ∨ c.isAlpha) : isSpace c = false ∧ c ≠ '"' := by
  constructor
  · by_contra space
    simp only [isSpace, Bool.not_eq_false, Bool.or_eq_true, beq_iff_eq] at space
    rcases space with ((rfl | rfl) | rfl) | rfl <;> revert run <;> decide
  · rintro rfl
    revert run
    decide

theorem scan?_word {word : JsonToken} (isWord : word? (c :: cs) = some word)
    (letters : ∀ d ∈ c :: cs, d.isAlpha) (apart : isNumberChar c = false) (ends : Ends rest) :
    scan? (c :: cs ++ rest) = (scan? rest).map (word :: ·) := by
  obtain ⟨first, others⟩ := List.forall_mem_cons.mp letters
  obtain ⟨run, behind⟩ := Text.takeWhile_append others fun d first => (ends d first).2
  have other := apart_of_run (.inr first)
  rw [List.cons_append, scan?, if_neg (by simp [other.1]), if_neg other.2, if_neg (by simp [apart]),
    if_pos first, run, behind, isWord]
  cases scan? rest <;> rfl

theorem scan?_number {n : JsonNumber} (kept : n.Kept) (ends : Ends rest) :
    scan? (n.text.toList ++ rest) = (scan? rest).map (.number n :: ·) := by
  obtain ⟨run, text, chars⟩ := JsonNumber.takes_of_parse? kept
  rw [List.append_nil] at text
  unfold JsonNumber.Kept at kept
  rw [text] at kept ⊢
  cases run with
  | nil => cases kept
  | cons c cs =>
    obtain ⟨first, others⟩ := List.forall_mem_cons.mp chars
    obtain ⟨run, behind⟩ := Text.takeWhile_append others fun d first => (ends d first).1
    have other := apart_of_run (.inl first)
    rw [List.cons_append, scan?, if_neg (by simp [other.1]), if_neg other.2, if_pos first, run,
      behind, kept]
    cases scan? rest <;> rfl

end Scan

end JsonToken

end StyleValues
