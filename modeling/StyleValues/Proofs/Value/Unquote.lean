import StyleValues.Value.Unquote

/-! Quotes around a text. Taking them away undoes putting them around a text of one line, and leaves
all other texts as they are. -/

namespace StyleValues

def quotes : List Char := ['"', '\'']

def inQuotes (quote : Char) (text : String) : String :=
  quote.toString ++ text ++ quote.toString

def OneLine (text : String) : Prop :=
  ∀ c ∈ text.toList, c ∉ ['\n', '\r', '\u2028', '\u2029']

theorem toList_inQuotes (quote : Char) (text : String) :
    (inQuotes quote text).toList = quote :: (text.toList ++ [quote]) := by
  simp [inQuotes]

theorem any_isLineTerminator_eq_false {text : String} :
    text.toList.any Text.isLineTerminator = false ↔ OneLine text := by
  simp [Text.isLineTerminator, OneLine, and_assoc]

instance (text : String) : Decidable (OneLine text) :=
  decidable_of_iff _ any_isLineTerminator_eq_false

theorem between?_eq_some_iff {quote : Char} {cs inner : List Char} :
    between? quote cs = some inner ↔ cs = quote :: (inner ++ [quote]) := by
  cases cs with
  | nil => simp [between?]
  | cons first rest =>
    rw [between?, List.cons.injEq, Option.ite_none_right_eq_some, Option.some.injEq, and_assoc]
    refine and_congr_right fun _ => ⟨?_, ?_⟩
    · rintro ⟨last, rfl⟩
      obtain ⟨front, same⟩ := List.getLast?_eq_some_iff.mp last
      rw [same, List.dropLast_concat]
    · rintro rfl
      simp

theorem betweenQuotes_eq_some_iff {cs inner : List Char} :
    (between? '"' cs <|> between? '\'' cs) = some inner ↔
      ∃ quote ∈ quotes, cs = quote :: (inner ++ [quote]) := by
  simp only [quotes, List.mem_cons, List.not_mem_nil, or_false, exists_eq_or_imp, exists_eq_left]
  rw [← between?_eq_some_iff, ← between?_eq_some_iff]
  cases double : between? '"' cs with
  | none => simp
  | some other =>
    have apart : between? '\'' cs ≠ some inner := by
      rw [Ne, between?_eq_some_iff, between?_eq_some_iff.mp double]
      simp
    simp [apart]

theorem withoutQuotes_inQuotes {quote : Char} (isQuote : quote ∈ quotes) {inner : List Char}
    (line : inner.any Text.isLineTerminator = false) :
    withoutQuotes (quote :: (inner ++ [quote])) = inner := by
  have found : (between? '"' (quote :: (inner ++ [quote])) <|>
      between? '\'' (quote :: (inner ++ [quote]))) = some inner :=
    betweenQuotes_eq_some_iff.mpr ⟨quote, isQuote, rfl⟩
  simp [withoutQuotes, found, line]

theorem withoutQuotes_eq_self {cs : List Char}
    (other : ∀ quote ∈ quotes, ∀ inner : List Char, inner.any Text.isLineTerminator = false →
      cs ≠ quote :: (inner ++ [quote])) :
    withoutQuotes cs = cs := by
  unfold withoutQuotes
  split
  next inner found =>
    obtain ⟨quote, isQuote, same⟩ := betweenQuotes_eq_some_iff.mp found
    split
    next => rfl
    next line => exact absurd same (other quote isQuote inner (eq_false_of_ne_true line))
  next => rfl

/-- One pair of quotes around a text of one line is taken away, whatever that text starts and ends
with. Every other text stays as it is. -/
theorem unquote_undoes_quoting :
    (∀ quote ∈ quotes, ∀ text, OneLine text →
      (Value.string (inQuotes quote text)).unquote = .ok (.string text)) ∧
    ∀ text, (∀ quote ∈ quotes, ∀ inner, OneLine inner → text ≠ inQuotes quote inner) →
      (Value.string text).unquote = .ok (.string text) := by
  have unquote_string (text : String) : (Value.string text).unquote =
      .ok (.string (String.ofList (withoutQuotes text.toList))) := rfl
  constructor
  · intro quote isQuote text line
    have bare := withoutQuotes_inQuotes isQuote (any_isLineTerminator_eq_false.mpr line)
    rw [unquote_string, toList_inQuotes, bare, String.ofList_toList]
  · intro text other
    have kept : withoutQuotes text.toList = text.toList := by
      apply withoutQuotes_eq_self
      intro quote isQuote inner line same
      apply other quote isQuote (String.ofList inner)
      · rw [← any_isLineTerminator_eq_false, String.toList_ofList]
        exact line
      · rw [← String.toList_inj, toList_inQuotes, String.toList_ofList]
        exact same
    rw [unquote_string, kept, String.ofList_toList]

/-- One pair goes where the text is quotes at both ends; nothing goes from a lone quote, from two
different ones, and from a text of two lines. -/
theorem unquote_undoes_quoting_margins :
    OneLine "'a\"" ∧ (Value.string "\"'a\"\"").unquote = .ok (.string "'a\"") ∧
      ∀ text ∈ ["\"", "'a\"", "\"a\u2028b\""],
        (∀ quote ∈ quotes, ∀ inner, OneLine inner → text ≠ inQuotes quote inner) ∧
          (Value.string text).unquote = .ok (.string text) := by
  obtain ⟨undone, kept⟩ := unquote_undoes_quoting
  have line : OneLine "'a\"" := by decide +kernel
  have broken : ∀ text ∈ ["\"", "'a\"", "\"a\u2028b\""], quotes.all fun quote =>
      (between? quote text.toList).all (·.any Text.isLineTerminator) := by decide +kernel
  refine ⟨line, undone '"' (by decide) "'a\"" line, fun text member => ?_⟩
  have other : ∀ quote ∈ quotes, ∀ inner, OneLine inner → text ≠ inQuotes quote inner := by
    rintro quote isQuote inner oneLine rfl
    have found := between?_eq_some_iff.mpr (toList_inQuotes quote inner)
    have spans := List.all_eq_true.mp (broken _ member) quote isQuote
    rw [found, Option.all_some, any_isLineTerminator_eq_false.mpr oneLine] at spans
    cases spans
  exact ⟨other, kept text other⟩

end StyleValues
