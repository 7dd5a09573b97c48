import Mathlib.Data.List.Basic
import Mathlib.Data.List.Induction
import StyleValues.Proofs.KeyedMap.Lookup
import StyleValues.Proofs.Value.Paths

/-! The value form of a keyed map, which has its kind and its text, and keyed maps made from map
values: what stands where, and in which order. -/

namespace StyleValues

theorem eraseDups_of_nodup {names : List String} (distinct : names.Nodup) :
    names.eraseDups = names := by
  induction names with
  | nil => rfl
  | cons name rest ih =>
    rw [List.nodup_cons] at distinct
    rw [List.eraseDups_cons, List.filter_eq_self.mpr, ih distinct.2]
    intro other found
    simp only [Bool.not_eq_true', beq_eq_false_iff_ne]
    exact fun same => distinct.1 (same ▸ found)

theorem findRev?_eq_some_iff {items : List α} {nameOf : α → String} {name : String} {item : α}
    (distinct : (items.map nameOf).Nodup) :
    (items.findRev? fun other => nameOf other == name) = some item ↔
      item ∈ items ∧ nameOf item = name := by
  induction items using List.reverseRecOn with
  | nil => simp [List.findRev?]
  | append_singleton items last ih =>
    rw [List.map_append, List.nodup_append] at distinct
    have apart : ∀ other ∈ items, nameOf other ≠ nameOf last := by
      intro other member
      exact distinct.2.2 _ (List.mem_map.mpr ⟨other, member, rfl⟩) _ List.mem_cons_self
    rw [findRev?_concat]
    by_cases here : nameOf last = name
    · simp only [here, beq_self_eq_true, if_true, Option.some.injEq, List.mem_append,
        List.mem_singleton]
      constructor
      · rintro rfl
        exact ⟨.inr rfl, here⟩
      · rintro ⟨member | rfl, same⟩
        · exact absurd (same.trans here.symm) (apart item member)
        · rfl
    · rw [if_neg (by simpa using here), ih distinct.1]
      simp only [List.mem_append, List.mem_singleton]
      constructor
      · exact fun found => ⟨.inl found.1, found.2⟩
      · rintro ⟨member | rfl, same⟩
        · exact ⟨member, same⟩
        · exact absurd same here

theorem filterMap_eq_self {f : α → Option α} {items : List α}
    (keeps : ∀ item ∈ items, f item = some item) : items.filterMap f = items := by
  rw [List.filterMap_congr keeps, List.filterMap_some]

theorem Value.uniqueEntries_of_nodup {entries : List (Value × Value)}
    (distinct : (keyFingerprints entries).Nodup) : uniqueEntries entries = entries := by
  rw [uniqueEntries, eraseDups_of_nodup distinct, keyFingerprints, List.filterMap_map]
  apply filterMap_eq_self
  intro entry member
  exact (findRev?_eq_some_iff distinct).mpr ⟨member, rfl⟩

namespace KeyedMap

def pairEntries (pairs : List (Value × Stored)) : List (Value × Value) :=
  pairs.map fun pair => (pair.1, pair.2.toValue)

theorem toEntries_eq (m : KeyedMap) : m.toEntries = pairEntries m.pairs := by
  obtain ⟨entries⟩ := m
  unfold toEntries pairs Table.values
  rw [Stored.tableEntries]
  induction entries with
  | nil => rfl
  | cons entry rest ih =>
    obtain ⟨_, key, s⟩ := entry
    rw [Stored.valueEntries, ih]
    rfl

@[simp] theorem pairEntries_tagEntries (entries : List (Value × Value)) :
    pairEntries (tagEntries entries) = entries := by
  simp [pairEntries, tagEntries, Function.comp_def, Stored.toValue]

@[simp] theorem keyFingerprints_pairEntries (pairs : List (Value × Stored)) :
    Value.keyFingerprints (pairEntries pairs) = pairs.map fun pair => pair.1.fingerprint := by
  simp [Value.keyFingerprints, pairEntries]

theorem keyFingerprints_toEntries (m : KeyedMap) :
    Value.keyFingerprints m.toEntries = m.fingerprints := by
  rw [toEntries_eq, keyFingerprints_pairEntries, fingerprints]

theorem lastUnder?_pairEntries (pairs : List (Value × Stored)) (fingerprint : String) :
    Value.lastUnder? (pairEntries pairs) fingerprint =
      (pairs.findRev? fun pair => pair.1.fingerprint == fingerprint).map
        fun pair => (pair.1, pair.2.toValue) := by
  rw [Value.lastUnder?, pairEntries, findRev?_map]
  rfl

theorem keys_ofPairs (pairs : List (Value × Stored)) :
    (ofPairs pairs).keys = (pairs.map fun pair => pair.1.fingerprint).eraseDups := by
  rw [ofPairs_eq_ofList, Table.keys_ofList, List.map_map]
  rfl

theorem get?_ofPairs (pairs : List (Value × Stored)) (fingerprint : String) :
    (ofPairs pairs).get? fingerprint =
      pairs.findRev? fun pair => pair.1.fingerprint == fingerprint := by
  rw [ofPairs_eq_ofList, Table.get?_ofList, findRev?_map, Option.map_map]
  exact congrFun Option.map_id _

/-- A keyed map stands for entries of a map value: it has their keys where each first occurs, and
under each the last key and value. -/
structure Reads (m : KeyedMap) (entries : List (Value × Value)) : Prop where
  wellFormed : m.WellFormed
  fingerprints_eq : m.fingerprints = (Value.keyFingerprints entries).eraseDups
  get?_eq : ∀ fingerprint,
    (m.get? fingerprint).map (fun pair => (pair.1, pair.2.toValue)) =
      Value.lastUnder? entries fingerprint

theorem WellFormed.reads {m : KeyedMap} (wf : m.WellFormed) : m.Reads m.toEntries where
  wellFormed := wf
  fingerprints_eq := by
    rw [keyFingerprints_toEntries, eraseDups_of_nodup wf.nodup_fingerprints]
  get?_eq fingerprint := by
    rw [toEntries_eq, lastUnder?_pairEntries]
    congr 1
    ext pair
    rw [wf.get?_eq_some_iff, findRev?_eq_some_iff wf.nodup_fingerprints]

theorem Reads.toEntries_eq {m : KeyedMap} {entries : List (Value × Value)}
    (reads : m.Reads entries) : m.toEntries = Value.uniqueEntries entries := by
  have found : m.pairs = m.fingerprints.filterMap m.get? := by
    rw [fingerprints, List.filterMap_map]
    refine (filterMap_eq_self fun pair member => ?_).symm
    exact reads.wellFormed.get?_eq_some_iff.mpr ⟨member, rfl⟩
  rw [KeyedMap.toEntries_eq, found, pairEntries, List.map_filterMap, reads.fingerprints_eq,
    Value.uniqueEntries]
  apply List.filterMap_congr
  intro fingerprint _
  exact reads.get?_eq fingerprint

theorem Reads.child?_eq {m : KeyedMap} {entries : List (Value × Value)} (reads : m.Reads entries)
    (key : Value) : (Value.map entries).child? key = (m.find? key).map Stored.toValue := by
  rw [Value.child?, ← reads.get?_eq, find?, Option.map_map, Option.map_map]
  rfl

theorem WellFormed.child?_toValue {m : KeyedMap} (wf : m.WellFormed) (key : Value) :
    m.toValue.child? key = (m.find? key).map Stored.toValue :=
  wf.reads.child?_eq key

theorem reads_ofEntries (entries : List (Value × Value)) : (ofEntries entries).Reads entries where
  wellFormed := WellFormed.ofEntries entries
  fingerprints_eq := by
    rw [← (WellFormed.ofEntries entries).keys_eq, ofEntries, keys_ofPairs]
    simp [tagEntries, Value.keyFingerprints, Function.comp_def]
  get?_eq fingerprint := by
    rw [ofEntries, get?_ofPairs, ← lastUnder?_pairEntries, pairEntries_tagEntries]

end KeyedMap

namespace Stored

@[induction_eliminator]
theorem ind {motive : Stored → Prop} (tagged : ∀ v, motive (.tagged v))
    (nested : ∀ m : KeyedMap, (∀ pair ∈ m.pairs, motive pair.2) → motive (.nested m))
    (s : Stored) : motive s :=
  Stored.rec (motive_2 := fun m => ∀ pair ∈ KeyedMap.pairs m, motive pair.2)
    (motive_3 := fun entries => ∀ pair ∈ entries.map Prod.snd, motive pair.2)
    (motive_4 := fun entry => motive entry.2.2) (motive_5 := fun pair => motive pair.2)
    tagged nested (fun _ each => each) nofun
    (fun _ _ first rest => List.forall_mem_cons.mpr ⟨first, rest⟩) (fun _ _ held => held)
    (fun _ _ held => held) s

theorem kind_toValue (s : Stored) : s.toValue.kind = s.kind := by
  cases s with
  | tagged v => rfl
  | nested m => rfl

theorem tableText_eq_mapText (m : KeyedMap) :
    tableText m = mapText (m.pairs.map fun pair => (pair.1.text, pair.2.text)) := by
  obtain ⟨entries⟩ := m
  rw [tableText, KeyedMap.pairs, Table.values]
  congr 1
  induction entries with
  | nil => rfl
  | cons entry rest ih => rw [pairTexts, ih, List.map_cons, List.map_cons]

theorem text_toValue (s : Stored) : s.toValue.text = s.text := by
  induction s with
  | tagged v => rfl
  | nested m ih =>
    have form : (nested m).toValue = .map (KeyedMap.pairEntries m.pairs) :=
      congrArg Value.map m.toEntries_eq
    rw [form, Value.text, Value.entryTexts_eq_map, KeyedMap.pairEntries, List.map_map, text,
      tableText_eq_mapText]
    congr 1
    apply List.map_congr_left
    intro pair member
    rw [Function.comp_apply, ih pair member]

end Stored

end StyleValues
