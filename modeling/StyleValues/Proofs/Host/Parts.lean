import Mathlib.Data.List.Nodup
import StyleValues.Host.Cast
import StyleValues.Proofs.KeyedMap.Lookup

/-! Casts of lists, tables and maps, told from the casts of their parts. -/

namespace StyleValues

namespace Host

variable {f : α → Host} {g : α → Value}

theorem toItems_map {items : List α} (each : ∀ a ∈ items, (f a).toValue = .ok (g a)) :
    toItems (items.map f) = .ok (items.map g) := by
  induction items with
  | nil => rfl
  | cons a rest ih =>
    obtain ⟨first, others⟩ := List.forall_mem_cons.mp each
    rw [List.map_cons, toItems, first, ih others]
    rfl

theorem toFields_mapped {fields : Table α}
    (each : ∀ field ∈ fields.entries, (f field.2).toValue = .ok (g field.2)) :
    toFields (fields.mapped f) =
      .ok (fields.entries.map fun field => (.string field.1, g field.2)) := by
  obtain ⟨fields⟩ := fields
  unfold Table.mapped toFields
  induction fields with
  | nil => rfl
  | cons field rest ih =>
    obtain ⟨first, others⟩ := List.forall_mem_cons.mp each
    rw [List.map_cons, toEntries, first, ih others]
    rfl

end Host

theorem Value.objectFields_eq_map (entries : List (Value × Value)) :
    objectFields entries = entries.map fun entry => (entry.1.keyText, entry.2.toObjectHost) := by
  induction entries with
  | nil => rfl
  | cons entry rest ih => rw [objectFields, ih, List.map_cons]

theorem Value.fingerprint_string_injective :
    Function.Injective fun key : String => (Value.string key).fingerprint := by
  intro key other same
  exact (String.append_right_inj _).mp same

theorem Table.Distinct.nodup_fingerprints {fields : Table α} (distinct : fields.Distinct) :
    (fields.entries.map fun field => (Value.string field.1).fingerprint).Nodup := by
  have fingerprints := List.Nodup.map Value.fingerprint_string_injective distinct
  rwa [keys, List.map_map] at fingerprints

end StyleValues
