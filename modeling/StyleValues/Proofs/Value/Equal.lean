import Mathlib
import StyleValues.Proofs.Value.Exposed

/-! Equal values. Doubles compare as numbers, so that the two zeros are equal, and no text tells one
from the other. -/

namespace StyleValues

theorem map_eq_of_forall₂ {R : α → β → Prop} {f : α → γ} {g : β → γ} {items : List α}
    {others : List β} (related : List.Forall₂ R items others)
    (each : ∀ a ∈ items, ∀ b, R a b → f a = g b) : items.map f = others.map g := by
  induction related with
  | nil => rfl
  | cons first _ ih =>
    obtain ⟨here, behind⟩ := List.forall_mem_cons.mp each
    rw [List.map_cons, List.map_cons, here _ first, ih behind]

theorem formatNumber_eq_of_beq {x y : Float} (same : x == y) :
    formatNumber x = formatNumber y := by
  have zeros : formatNumber 0 = formatNumber (-0) := by decide +kernel
  obtain ⟨-, -, rfl | ⟨rfl, rfl⟩ | ⟨rfl, rfl⟩⟩ := Float.beq_iff_ne_nan_and_eq.mp same
  · rfl
  · exact zeros
  · exact zeros.symm

theorem Color.text_eq_of_same {a b : Color} (same : a.same b) : a.text = b.text := by
  simp only [Color.same, Bool.and_eq_true] at same
  obtain ⟨⟨⟨red, green⟩, blue⟩, alpha⟩ := same
  simp only [Color.text, List.map_cons, List.map_nil, formatNumber_eq_of_beq red,
    formatNumber_eq_of_beq green, formatNumber_eq_of_beq blue, formatNumber_eq_of_beq alpha]

namespace Value

theorem sameItems_iff {items others : List Value} :
    sameItems items others ↔ List.Forall₂ (fun v w => v.same w) items others := by
  induction items generalizing others with
  | nil => cases others <;> simp [sameItems]
  | cons v rest ih => cases others <;> simp [sameItems, ih]

theorem sameEntries_iff {entries others : List (Value × Value)} :
    sameEntries entries others ↔
      List.Forall₂ (fun a b => a.1.same b.1 ∧ a.2.same b.2) entries others := by
  induction entries generalizing others with
  | nil => cases others <;> simp [sameEntries]
  | cons entry rest ih => cases others <;> simp [sameEntries, ih]

theorem kind_eq_of_same {v w : Value} (same : v.same w) : v.kind = w.kind := by
  cases v <;> cases w <;> first | rfl | cases same

theorem text_eq_of_same {v w : Value} (same : v.same w) : v.text = w.text := by
  have kinds := kind_eq_of_same same
  induction v generalizing w with
  | string text =>
    cases w with
    | string other => exact beq_iff_eq.mp same
    | _ => cases kinds
  | number x unit =>
    cases w with
    | number y other =>
      obtain ⟨values, units⟩ := Bool.and_eq_true_iff.mp same
      rw [text, text, formatNumber_eq_of_beq values, beq_iff_eq.mp units]
    | _ => cases kinds
  | bool b =>
    cases w with
    | bool c => rw [beq_iff_eq.mp same]
    | _ => cases kinds
  | null =>
    cases w with
    | null => rfl
    | _ => cases kinds
  | color c =>
    cases w with
    | color d => exact Color.text_eq_of_same same
    | _ => cases kinds
  | list items separator ih =>
    cases w with
    | list others separator' =>
      obtain ⟨items_same, separators⟩ := Bool.and_eq_true_iff.mp same
      have texts : items.map text = others.map text :=
        map_eq_of_forall₂ (sameItems_iff.mp items_same) fun v member w same =>
          ih v member same (kind_eq_of_same same)
      rw [text, text, itemTexts_eq_map, itemTexts_eq_map, texts, beq_iff_eq.mp separators]
    | _ => cases kinds
  | map entries ih =>
    cases w with
    | map others =>
      have texts : (entries.map fun e => (e.1.text, e.2.text)) =
          others.map fun e => (e.1.text, e.2.text) :=
        map_eq_of_forall₂ (sameEntries_iff.mp same) fun e member f same =>
          Prod.ext ((ih e member).1 same.1 (kind_eq_of_same same.1))
            ((ih e member).2 same.2 (kind_eq_of_same same.2))
      rw [text, text, entryTexts_eq_map, entryTexts_eq_map, texts]
    | _ => cases kinds
  | error text =>
    cases w with
    | error other => rfl
    | _ => cases kinds

/-- Equal values are one key, however deep zeros of unlike signs are in them. -/
theorem fingerprint_eq_of_same {v w : Value} (same : v.same w) :
    v.fingerprint = w.fingerprint := by
  rw [fingerprint, fingerprint, kind_eq_of_same same, text_eq_of_same same]

end Value

end StyleValues
