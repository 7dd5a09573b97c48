import StyleValues.KeyedMap.Basic

/-! Keyed maps whose fingerprints are distinct and those of their keys, at every depth. Every
operation on keyed maps keeps them so. -/

namespace StyleValues

namespace Stored

mutual

def WellFormed : Stored → Prop
  | .tagged _ => True
  | .nested m => WellFormedTable m
termination_by structural s => s

def WellFormedTable : Table (Value × Stored) → Prop
  | ⟨entries⟩ => (entries.map Prod.fst).Nodup ∧ WellFormedEntries entries
termination_by structural m => m

def WellFormedEntries : List (String × Value × Stored) → Prop
  | [] => True
  | (fingerprint, key, s) :: rest =>
      fingerprint = key.fingerprint ∧ s.WellFormed ∧ WellFormedEntries rest
termination_by structural es => es

end

theorem wellFormedEntries_iff (entries : List (String × Value × Stored)) :
    WellFormedEntries entries ↔
      ∀ entry ∈ entries, entry.1 = entry.2.1.fingerprint ∧ entry.2.2.WellFormed := by
  induction entries with
  | nil => simp [WellFormedEntries]
  | cons entry rest ih =>
    obtain ⟨fingerprint, key, s⟩ := entry
    simp [WellFormedEntries, ih, and_assoc]

end Stored

namespace KeyedMap

def WellFormed (m : KeyedMap) : Prop := Stored.WellFormedTable m

theorem wellFormed_iff (m : KeyedMap) :
    m.WellFormed ↔ m.Distinct ∧
      ∀ entry ∈ m.entries, entry.1 = entry.2.1.fingerprint ∧ entry.2.2.WellFormed := by
  obtain ⟨entries⟩ := m
  rw [← Stored.wellFormedEntries_iff]
  rfl

theorem WellFormed.empty : KeyedMap.empty.WellFormed :=
  ⟨List.nodup_nil, trivial⟩

theorem mem_put {key : String} {value : α} {entries : List (String × α)} {entry : String × α}
    (h : entry ∈ Table.put key value entries) : entry = (key, value) ∨ entry ∈ entries := by
  induction entries with
  | nil => grind [Table.put]
  | cons first rest ih => grind [Table.put]

theorem WellFormed.set {m : KeyedMap} (wf : m.WellFormed) (key : Value) {s : Stored}
    (held : s.WellFormed) : (m.set key s).WellFormed := by
  rw [wellFormed_iff] at *
  refine ⟨wf.1.insert _ _, fun entry found => ?_⟩
  rcases mem_put found with same | found
  · rw [same]
    exact ⟨rfl, held⟩
  · exact wf.2 entry found

theorem WellFormed.delete {m : KeyedMap} (wf : m.WellFormed) (key : Value) :
    (m.delete key).WellFormed := by
  rw [wellFormed_iff] at *
  exact ⟨wf.1.erase _, fun entry found => wf.2 entry ((List.mem_filter.mp found).1)⟩

theorem WellFormed.ofPairs {pairs : List (Value × Stored)}
    (held : ∀ pair ∈ pairs, pair.2.WellFormed) : (KeyedMap.ofPairs pairs).WellFormed := by
  suffices h : ∀ m : KeyedMap, m.WellFormed →
      (pairs.foldl (fun m entry => m.set entry.1 entry.2) m).WellFormed from
    h KeyedMap.empty WellFormed.empty
  induction pairs with
  | nil => exact fun _ wf => wf
  | cons pair rest ih =>
    exact fun m wf => ih (fun p found => held p (List.mem_cons_of_mem _ found)) _
      (wf.set pair.1 (held pair List.mem_cons_self))

theorem WellFormed.ofEntries (entries : List (Value × Value)) :
    (KeyedMap.ofEntries entries).WellFormed := by
  refine WellFormed.ofPairs fun pair found => ?_
  obtain ⟨entry, -, same⟩ := List.mem_map.mp found
  rw [← same]
  exact trivial

end KeyedMap

/-- What a map holds that is only changed by its operations. -/
structure Held where
  stored : Stored
  wellFormed : stored.WellFormed

/-- A keyed map as its operations leave it. The type of what it holds cannot ask for this, so it is
asked for once around the whole. -/
structure ValueMap where
  map : KeyedMap
  wellFormed : map.WellFormed

namespace Held

def tagged (v : Value) : Held := ⟨.tagged v, trivial⟩

def nested (m : ValueMap) : Held := ⟨.nested m.map, m.wellFormed⟩

def toValue (s : Held) : Value := s.stored.toValue

end Held

namespace ValueMap

def empty : ValueMap := ⟨.empty, .empty⟩

def ofEntries (entries : List (Value × Value)) : ValueMap :=
  ⟨.ofEntries entries, .ofEntries entries⟩

def set (m : ValueMap) (key : Value) (s : Held) : ValueMap where
  map := m.map.set key s.stored
  wellFormed := m.wellFormed.set key s.wellFormed

def delete (m : ValueMap) (key : Value) : ValueMap where
  map := m.map.delete key
  wellFormed := m.wellFormed.delete key

def toValue (m : ValueMap) : Value := m.map.toValue

end ValueMap

end StyleValues
