import Mathlib.Data.List.TakeWhile
import StyleValues.Proofs.Text.Runs
import StyleValues.Proofs.Units.Plain

/-! Texts of units read back as the lists of symbols they were written for. -/

namespace StyleValues.Units

/-- Symbols that stay apart in a text: none is empty, and none has a divider in it. -/
def Legible (names : List String) : Prop :=
  ∀ symbol ∈ names, symbol ≠ "" ∧ Plain symbol

instance (names : List String) : Decidable (Legible names) :=
  inferInstanceAs (Decidable (∀ symbol ∈ names, symbol ≠ "" ∧ Plain symbol))

theorem symbols_plain {text : String} (some : text ≠ "") (plain : Plain text) :
    symbols text.toList = [text] := by
  rw [symbols, List.splitOnP_eq_singleton (isDivider_eq_false plain)]
  simp [some]

theorem symbols_plain_append {text : String} (some : text ≠ "") (plain : Plain text)
    {divider : Char} (divides : isDivider divider) (rest : List Char) :
    symbols (text.toList ++ divider :: rest) = text :: symbols rest := by
  rw [symbols, List.splitOnP_append_cons_of_forall_mem (isDivider_eq_false plain) divider divides,
    symbols]
  simp [some]

theorem symbols_divider_cons {divider : Char} (divides : isDivider divider) (rest : List Char) :
    symbols (divider :: rest) = symbols rest := by
  simp [symbols, List.splitOnP_cons_eq_if_modifyHead, divides]

theorem symbols_joined {names : List String} (legible : Legible names) :
    symbols (Text.joined "*" names).toList = names := by
  fun_induction Text.joined "*" names with
  | case1 => rfl
  | case2 text =>
    obtain ⟨some, plain⟩ := legible text List.mem_cons_self
    exact symbols_plain some plain
  | case3 text next rest ih =>
    obtain ⟨some, plain⟩ := legible text List.mem_cons_self
    have divided : (text ++ "*" ++ Text.joined "*" (next :: rest)).toList =
        text.toList ++ '*' :: (Text.joined "*" (next :: rest)).toList := by
      simp
    rw [divided, symbols_plain_append some plain rfl,
      ih fun symbol member => legible symbol (List.mem_cons_of_mem _ member)]

theorem slash_not_mem_joined {names : List String} (legible : Legible names) :
    '/' ∉ (Text.joined "*" names).toList := by
  fun_induction Text.joined "*" names with
  | case1 => exact List.not_mem_nil
  | case2 text => exact (legible text List.mem_cons_self).2.2
  | case3 text next rest ih =>
    have first := (legible text List.mem_cons_self).2.2
    have others := ih fun symbol member => legible symbol (List.mem_cons_of_mem _ member)
    simp [first, others]

theorem symbols_below {names : List String} (legible : Legible names) :
    symbols (if names.isEmpty then "" else "/" ++ Text.joined "*" names).toList = names := by
  cases names with
  | nil => rfl
  | cons symbol rest =>
    rw [if_neg (by simp), String.toList_append]
    exact (symbols_divider_cons rfl _).trans (symbols_joined legible)

theorem head_below (names : List String) :
    ∀ c ∈ (if names.isEmpty then "" else "/" ++ Text.joined "*" names).toList.head?,
      (c != '/') = false := by
  cases names with
  | nil => nofun
  | cons symbol rest => simp

theorem parse_text_eq {u : Units} (legible : Legible (u.numerator ++ u.denominator)) :
    parse u.text = u := by
  have above : Legible u.numerator := fun symbol member =>
    legible symbol (List.mem_append_left _ member)
  have below : Legible u.denominator := fun symbol member =>
    legible symbol (List.mem_append_right _ member)
  have noSlash : ∀ c ∈ (Text.joined "*" u.numerator).toList, c != '/' := by
    intro c member
    exact bne_iff_ne.mpr fun same => slash_not_mem_joined above (same ▸ member)
  obtain ⟨taken, dropped⟩ := Text.takeWhile_append noSlash (head_below u.denominator)
  rw [parse, Units.text, String.toList_append, taken, dropped, symbols_joined above,
    symbols_below below]

theorem eq_false_of_mem_splitOnP {p : α → Bool} {cs part : List α}
    (member : part ∈ cs.splitOnP p) : ∀ c ∈ part, p c = false := by
  induction cs generalizing part with
  | nil =>
    rw [List.splitOnP_nil, List.mem_singleton] at member
    exact member ▸ List.forall_mem_nil _
  | cons c cs ih =>
    obtain ⟨first, others, form⟩ := List.exists_cons_of_ne_nil (List.splitOnP_ne_nil p cs)
    rw [List.splitOnP_cons_eq_if_modifyHead] at member
    split at member
    next =>
      rcases List.mem_cons.mp member with rfl | member
      · exact List.forall_mem_nil _
      · exact ih member
    next other =>
      rw [form, List.modifyHead_cons] at member
      rcases List.mem_cons.mp member with rfl | member
      · exact List.forall_mem_cons.mpr ⟨eq_false_of_ne_true other, ih (form ▸ List.mem_cons_self)⟩
      · exact ih (form ▸ List.mem_cons_of_mem _ member)

theorem legible_symbols (cs : List Char) : Legible (symbols cs) := by
  intro symbol member
  obtain ⟨part, found, rfl⟩ := List.mem_map.mp member
  obtain ⟨found, some⟩ := List.mem_filter.mp found
  refine ⟨by simpa using some, plain_of_isDivider_eq_false ?_⟩
  rw [String.toList_ofList]
  exact eq_false_of_mem_splitOnP found

theorem Legible.append {names others : List String} (legible : Legible names)
    (behind : Legible others) : Legible (names ++ others) :=
  List.forall_mem_append.mpr ⟨legible, behind⟩

/-- Whatever the text, the symbols that are read from it can be told apart in a text again. -/
theorem legible_parse (text : String) :
    Legible ((parse text).numerator ++ (parse text).denominator) :=
  (legible_symbols _).append (legible_symbols _)

/-- Only symbols without dividers are read, and units of such symbols are read from their text as
they stand, in their order. So no two of them have one text, and units that were read once are read
again from their own text, however their first text was spelled. -/
theorem parse_text_laws :
    (∀ text, Legible ((parse text).numerator ++ (parse text).denominator)) ∧
    (∀ u : Units, Legible (u.numerator ++ u.denominator) → parse u.text = u) ∧
    (∀ u v : Units, Legible (u.numerator ++ u.denominator) →
      Legible (v.numerator ++ v.denominator) → u.text = v.text → u = v) ∧
    ∀ text, parse (parse text).text = parse text := by
  refine ⟨legible_parse, fun _ => parse_text_eq, fun u v legible legible' same => ?_,
    fun text => parse_text_eq (legible_parse text)⟩
  rw [← parse_text_eq legible, same, parse_text_eq legible']

theorem parse_text_laws_frequency :
    Legible (([] : List String) ++ ["s", "ms", "s"]) ∧
      parse "/s*ms*s" = ⟨[], ["s", "ms", "s"]⟩ ∧
      parse "*px**em//s/*" = ⟨["px", "em"], ["s"]⟩ ∧
      parse (parse "*px**em//s/*").text = parse "*px**em//s/*" := by
  have legible : Legible (([] : List String) ++ ["s", "ms", "s"]) := by decide
  obtain ⟨-, reads, -, again⟩ := parse_text_laws
  exact ⟨legible, reads ⟨[], ["s", "ms", "s"]⟩ legible, by cbv, again _⟩

end StyleValues.Units
