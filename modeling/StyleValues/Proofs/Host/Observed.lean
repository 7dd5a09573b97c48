import StyleValues.Proofs.Host.CastBack
import StyleValues.Proofs.Host.JsonBridge
import StyleValues.Proofs.KeyedMap.Runs

/-! What can be seen of what a keyed map holds. Nothing tells it from its value form: neither its
kind and its text, nor what it is cast to, nor what is written of it. -/

namespace StyleValues

namespace KeyedMap

theorem pairs_ofEntries_of_nodup {entries : List (Value × Value)}
    (distinct : (Value.keyFingerprints entries).Nodup) :
    (ofEntries entries).pairs = tagEntries entries := by
  rw [ofEntries_eq_ofList, Table.ofList_of_nodup]
  · rw [pairs, Table.values, List.map_map]
    rfl
  · rw [List.map_map]
    exact distinct

theorem WellFormed.nodup_toEntries {m : KeyedMap} (wf : m.WellFormed) :
    (Value.keyFingerprints m.toEntries).Nodup := by
  rw [keyFingerprints_toEntries]
  exact wf.nodup_fingerprints

theorem WellFormed.toValue_toHost_toValue {m : KeyedMap} (wf : m.WellFormed) :
    m.toValue.toHost.toValue = .ok m.toValue := by
  have back : (KeyedMap.ofEntries m.toEntries).toEntries = m.toEntries := by
    rw [(reads_ofEntries m.toEntries).toEntries_eq,
      Value.uniqueEntries_of_nodup wf.nodup_toEntries]
  exact congrArg (Except.ok ∘ Value.map) back

theorem on_trySet_map (m keys : KeyedMap) (value : Host) :
    (Access.trySet (.map keys) value).on m =
      (Access.trySet (.tagged keys.toValue) value).on m := rfl

theorem find?_of_trySet {m n : KeyedMap} {key : Value} {value : Host}
    (done : (Access.trySet (.tagged key) value).on m = (.ok (), n)) :
    n.find? key = value.stored? := by
  cases isValue : value.stored? with
  | none =>
    rw [Access.on_trySet_of_not_stored? m (.inr isValue)] at done
    cases done
  | some s =>
    rw [Access.on_trySet_of_stored? m rfl isValue] at done
    rw [← (Prod.mk.inj done).2]
    exact (m.find?_set key key s).trans (if_pos rfl)

end KeyedMap

namespace Stored

theorem toJson_toValue {s : Stored} (wf : s.WellFormed) : s.toValue.toJson = s.toJson := by
  induction s with
  | tagged v => rfl
  | nested m ih =>
    have wf : m.WellFormed := wf
    have pairs : (KeyedMap.ofEntries m.toEntries).pairs =
        m.pairs.map fun pair => (pair.1, .tagged pair.2.toValue) := by
      rw [KeyedMap.pairs_ofEntries_of_nodup wf.nodup_toEntries, KeyedMap.tagEntries,
        KeyedMap.toEntries_eq, KeyedMap.pairEntries, List.map_map]
      rfl
    have written : (nested m).toValue.toJson = (nested (KeyedMap.ofEntries m.toEntries)).toJson :=
      (Value.toJson_ofEntries m.toEntries).symm
    rw [written, toJson, toJson, jsonTable_eq_map, jsonTable_eq_map, pairs, List.map_map]
    congr 2
    apply List.map_congr_left
    intro pair member
    rw [Function.comp_apply, ← ih pair member (wf.of_mem member)]
    rfl

/-- What a map holds is seen like its value form: in its kind, in its text and so as a key, in the
JSON written of it, and in the value that it is cast to. -/
theorem observations_eq (s : Held) :
    s.stored.kind = s.toValue.kind ∧ s.stored.text = s.toValue.text ∧
      (∀ keys : KeyedMap, s.stored = .nested keys → ∀ (m : KeyedMap) (value : Host),
        (Access.trySet (.map keys) value).on m =
            (Access.trySet (.tagged s.toValue) value).on m ∧
          ∀ n : KeyedMap, (Access.trySet (.map keys) value).on m = (.ok (), n) →
            n.find? s.toValue = value.stored?) ∧
      s.stored.toHost.toJson = s.toValue.toHost.toJson ∧
      s.stored.toHost.toValue = s.toValue.toHost.toValue := by
  obtain ⟨s, wf⟩ := s
  refine ⟨s.kind_toValue.symm, s.text_toValue.symm, ?_, ?_, ?_⟩
  · rintro keys rfl m value
    exact ⟨m.on_trySet_map keys value, fun n done => KeyedMap.find?_of_trySet done⟩
  · rw [Held.toValue, Value.toJson_toHost, toJson_toValue wf, s.toJson_toHost]
  · cases s with
    | tagged v => rfl
    | nested m => exact (KeyedMap.WellFormed.toValue_toHost_toValue wf).symm

def layers : ValueMap :=
  (ValueMap.empty.set (.bool true)
      (.nested (ValueMap.empty.set (.string "a") (.tagged .null)))).set (.string "b")
    (.tagged (.map [(.string "x", .null), (.string "x", .bool true)]))

theorem observations_eq_layers :
    layers.toValue.text = "(true: (a: null), b: (x: null, x: true))" ∧
      layers.map.text = layers.toValue.text ∧
      (nested layers.map).toHost.toJson = layers.toValue.toHost.toJson ∧
      (nested layers.map).toHost.toValue = layers.toValue.toHost.toValue := by
  obtain ⟨-, text, -, written, cast⟩ := observations_eq (.nested layers)
  exact ⟨rfl, text, written, cast⟩

end Stored

end StyleValues
