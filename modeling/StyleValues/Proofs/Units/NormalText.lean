import Mathlib.Data.List.TakeWhile
import StyleValues.Command.Basic
import StyleValues.Proofs.Units.Exponent
import StyleValues.Proofs.Units.ReadBack

/-! What a unit text says: how often each symbol counts above the fraction bar, less how often
below. Texts that say the same have one normal form, and that is its own. -/

namespace StyleValues.Units

def factors (segment : List Char) : List String :=
  ((segment.splitOn '*').filter (· ≠ [])).map String.ofList

/-- Occurrences of a symbol before the first slash less those behind it. A further slash only parts
symbols, as a star does. -/
def netExponent (text symbol : String) : Int :=
  let segments := text.toList.splitOn '/'
  ((segments.take 1).flatMap factors).count symbol -
    ((segments.drop 1).flatMap factors).count symbol

theorem splitOnP_or (p q : α → Bool) (items : List α) :
    items.splitOnP (fun a => p a || q a) = (items.splitOnP q).flatMap (List.splitOnP p) := by
  induction items with
  | nil => rfl
  | cons a rest ih =>
    obtain ⟨first, others, form⟩ := List.exists_cons_of_ne_nil (List.splitOnP_ne_nil q rest)
    rw [form, List.flatMap_cons] at ih
    rw [List.splitOnP_cons_eq_if_modifyHead, List.splitOnP_cons_eq_if_modifyHead, form, ih]
    by_cases outer : q a
    · simp [outer]
    · by_cases inner : p a
      · simp [outer, inner, List.splitOnP_cons_eq_if_modifyHead]
      · obtain ⟨part, parts, split⟩ := List.exists_cons_of_ne_nil (List.splitOnP_ne_nil p first)
        simp [outer, inner, List.splitOnP_cons_eq_if_modifyHead, split]

theorem symbols_eq_flatMap (cs : List Char) : symbols cs = (cs.splitOn '/').flatMap factors := by
  have divided : cs.splitOnP isDivider = (cs.splitOn '/').flatMap (List.splitOn '*') :=
    splitOnP_or (· == '*') (· == '/') cs
  rw [symbols, divided, List.filter_flatMap, List.map_flatMap]
  rfl

theorem symbols_eq_factors {cs : List Char} (noSlash : '/' ∉ cs) : symbols cs = factors cs := by
  rw [symbols_eq_flatMap, List.splitOn_eq_singleton noSlash, List.flatMap_singleton]

/-- The segments of a text between its slashes: the first one is the numerator, all others are the
denominator. -/
theorem parse_eq_segments (text : String) :
    parse text = ⟨((text.toList.splitOn '/').take 1).flatMap factors,
      ((text.toList.splitOn '/').drop 1).flatMap factors⟩ := by
  rw [parse]
  generalize text.toList = cs
  have kept {above : List Char} (noSlash : '/' ∉ above) : ∀ c ∈ above, c != '/' := by
    intro c member
    exact bne_iff_ne.mpr fun same => noSlash (same ▸ member)
  by_cases slash : '/' ∈ cs
  · obtain ⟨above, below, rfl, noSlash⟩ := List.eq_append_cons_of_mem slash
    have stops : ∀ c ∈ ('/' :: below).head?, (c != '/') = false := by simp
    obtain ⟨taken, dropped⟩ := Text.takeWhile_append (kept noSlash) stops
    rw [taken, dropped, symbols_eq_factors noSlash, symbols_divider_cons rfl, symbols_eq_flatMap,
      List.splitOn_append_cons_self_of_not_mem noSlash]
    simp
  · rw [List.takeWhile_eq_self_iff.mpr (kept slash), List.dropWhile_eq_nil_iff.mpr (kept slash),
      symbols_eq_factors slash, List.splitOn_eq_singleton slash]
    simp [symbols]

theorem exponent_parse (text symbol : String) :
    (parse text).exponent symbol = netExponent text symbol := by
  rw [parse_eq_segments]
  rfl

theorem Legible.normalized {u : Units} (legible : Legible (u.numerator ++ u.denominator)) :
    Legible (u.normalized.numerator ++ u.normalized.denominator) := by
  refine fun symbol member => legible symbol ?_
  rw [List.mem_append, ← List.count_pos_iff, ← List.count_pos_iff, count_numerator_normalized,
    count_denominator_normalized] at member
  rw [List.mem_append, ← List.count_pos_iff, ← List.count_pos_iff]
  omega

theorem legible_normalized_parse (text : String) :
    Legible ((parse text).normalized.numerator ++ (parse text).normalized.denominator) :=
  (legible_parse text).normalized

theorem parse_unitText (text : String) : parse (unitText text) = (parse text).normalized :=
  parse_text_eq (legible_normalized_parse text)

theorem unitText_eq_iff_normalized {text other : String} :
    unitText text = unitText other ↔ (parse text).normalized = (parse other).normalized := by
  constructor
  · intro same
    rw [← parse_unitText, same, parse_unitText]
  · intro same
    rw [unitText, same, unitText]

/-- Unit texts are written alike exactly if every symbol has one net exponent in both, and what is
written is written as it stands. -/
theorem unitText_canonical (text other : String) :
    (unitText text = unitText other ↔
      ∀ symbol, netExponent text symbol = netExponent other symbol) ∧
    unitText (unitText text) = unitText text := by
  constructor
  · rw [unitText_eq_iff_normalized, normalized_eq_iff]
    simp only [exponent_parse]
  · rw [unitText_eq_iff_normalized, parse_unitText, (normal_normalized _).normalized_eq]

example : unitText "s*px//px*px/*em" = "s/em*px" := by cbv

end StyleValues.Units
