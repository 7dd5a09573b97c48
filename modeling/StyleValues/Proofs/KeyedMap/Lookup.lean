import StyleValues.Proofs.Table

/-! What the readers of a well-formed keyed map see: its pairs, each under the fingerprint of its
key. -/

namespace StyleValues

namespace KeyedMap

def fingerprints (m : KeyedMap) : List String :=
  m.pairs.map fun pair => pair.1.fingerprint

theorem find?_congr (m : KeyedMap) {key other : Value}
    (same : key.fingerprint = other.fingerprint) : m.find? key = m.find? other := by
  rw [find?, find?, same]

def others (m : KeyedMap) (key : Value) : List (Value × Stored) :=
  m.pairs.filter fun pair => pair.1.fingerprint != key.fingerprint

theorem mem_pairs {m : KeyedMap} {pair : Value × Stored} :
    pair ∈ m.pairs ↔ ∃ fingerprint, (fingerprint, pair) ∈ m.entries := by
  simp [pairs, Table.values]

theorem mem_pairs_set {m : KeyedMap} {key : Value} {s : Stored} {pair : Value × Stored}
    (member : pair ∈ (m.set key s).pairs) : pair = (key, s) ∨ pair ∈ m.pairs := by
  obtain ⟨fingerprint, member⟩ := mem_pairs.mp member
  rcases mem_put member with same | member
  · exact .inl (Prod.mk.inj same).2
  · exact .inr (mem_pairs.mpr ⟨fingerprint, member⟩)

theorem mem_ofPairs {pairs : List (Value × Stored)} {pair : Value × Stored}
    (member : pair ∈ (ofPairs pairs).pairs) : pair ∈ pairs := by
  obtain ⟨fingerprint, member⟩ := mem_pairs.mp member
  rw [ofPairs_eq_ofList] at member
  obtain ⟨other, found, same⟩ := List.mem_map.mp (Table.mem_of_mem_ofList member)
  cases same
  exact found

/-- Each entry stands under the fingerprint of its key, and no two of these are the same. -/
structure Keyed (m : KeyedMap) : Prop where
  distinct : m.Distinct
  keyed : ∀ entry ∈ m.entries, entry.1 = entry.2.1.fingerprint

namespace Keyed

theorem empty : KeyedMap.empty.Keyed :=
  ⟨Table.distinct_empty, nofun⟩

variable {m : KeyedMap} (keyed : m.Keyed)

include keyed

theorem mem_entries_iff {fingerprint : String} {pair : Value × Stored} :
    (fingerprint, pair) ∈ m.entries ↔ pair ∈ m.pairs ∧ pair.1.fingerprint = fingerprint := by
  constructor
  · intro member
    exact ⟨mem_pairs.mpr ⟨_, member⟩, (keyed.keyed _ member).symm⟩
  · rintro ⟨member, same⟩
    obtain ⟨found, member⟩ := mem_pairs.mp member
    rw [← same, ← keyed.keyed _ member]
    exact member

theorem entries_eq :
    m.entries = m.pairs.map fun pair => (pair.1.fingerprint, pair) := by
  rw [pairs, Table.values, List.map_map]
  refine (List.map_id _).symm.trans (List.map_congr_left fun entry member => ?_)
  exact Prod.ext (keyed.keyed entry member) rfl

theorem keys_eq : m.keys = m.fingerprints := by
  unfold Table.keys fingerprints pairs Table.values
  rw [List.map_map]
  apply List.map_congr_left
  intro entry member
  exact keyed.keyed entry member

theorem get?_eq_some_iff {fingerprint : String} {pair : Value × Stored} :
    m.get? fingerprint = some pair ↔ pair ∈ m.pairs ∧ pair.1.fingerprint = fingerprint := by
  rw [← keyed.mem_entries_iff]
  exact ⟨Table.mem_of_find, Table.find_of_mem keyed.distinct⟩

theorem set (key : Value) (s : Stored) : (m.set key s).Keyed where
  distinct := keyed.distinct.insert _ _
  keyed entry member := by
    rcases mem_put member with rfl | member
    · rfl
    · exact keyed.keyed entry member

theorem delete (key : Value) : (m.delete key).Keyed where
  distinct := keyed.distinct.erase _
  keyed entry member := keyed.keyed entry (List.mem_filter.mp member).1

end Keyed

namespace WellFormed

variable {m : KeyedMap} (wf : m.WellFormed)

include wf

theorem keyed : m.Keyed where
  distinct := ((wellFormed_iff m).mp wf).1
  keyed entry member := (((wellFormed_iff m).mp wf).2 entry member).1

theorem keys_eq : m.keys = m.fingerprints :=
  wf.keyed.keys_eq

theorem nodup_fingerprints : m.fingerprints.Nodup := by
  rw [← wf.keys_eq]
  exact wf.keyed.distinct

theorem get?_eq_some_iff {fingerprint : String} {pair : Value × Stored} :
    m.get? fingerprint = some pair ↔ pair ∈ m.pairs ∧ pair.1.fingerprint = fingerprint :=
  wf.keyed.get?_eq_some_iff

theorem find?_eq_some_iff {key : Value} {s : Stored} :
    m.find? key = some s ↔ ∃ k, (k, s) ∈ m.pairs ∧ k.fingerprint = key.fingerprint := by
  unfold find?
  rw [Option.map_eq_some_iff]
  constructor
  · rintro ⟨⟨k, held⟩, found, rfl⟩
    exact ⟨k, wf.get?_eq_some_iff.mp found⟩
  · rintro ⟨k, found⟩
    exact ⟨(k, s), wf.get?_eq_some_iff.mpr found, rfl⟩

theorem of_mem {pair : Value × Stored} (member : pair ∈ m.pairs) : pair.2.WellFormed := by
  obtain ⟨_, found⟩ := mem_pairs.mp member
  exact (((wellFormed_iff m).mp wf).2 _ found).2

end WellFormed

end KeyedMap

end StyleValues
