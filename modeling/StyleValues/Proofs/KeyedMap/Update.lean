import StyleValues.Proofs.KeyedMap.Lookup
import StyleValues.Proofs.KeyedMap.Merging

/-! Updates of keyed maps as tables laid over one another. They are a monoid in which every map is
idempotent, and what comes in may as well be made a keyed map first. -/

namespace StyleValues.KeyedMap

theorem update_eq_insertAll (m : KeyedMap) (pairs : List (Value × Stored)) :
    m.update pairs = m.insertAll (pairs.map fun pair => (pair.1.fingerprint, pair)) := by
  induction pairs generalizing m with
  | nil => rfl
  | cons pair rest ih =>
    rw [update_cons, ih]
    rfl

theorem empty_update (pairs : List (Value × Stored)) : empty.update pairs = ofPairs pairs := by
  rw [update_eq_insertAll, ofPairs_eq_ofList]
  rfl

namespace Keyed

variable {m : KeyedMap} (keyed : m.Keyed)

include keyed

theorem update (pairs : List (Value × Stored)) : (m.update pairs).Keyed := by
  induction pairs generalizing m with
  | nil => exact keyed
  | cons pair rest ih =>
    rw [update_cons]
    exact ih (keyed.set pair.1 pair.2)

theorem update_pairs (other : KeyedMap) : other.update m.pairs = other.insertAll m.entries := by
  rw [update_eq_insertAll, ← keyed.entries_eq]

theorem ofPairs_pairs : ofPairs m.pairs = m := by
  rw [ofPairs_eq_ofList, ← keyed.entries_eq, keyed.distinct.ofList_entries]

/-- Among what comes in, the first of one key gives the place and the last the key and the value,
just as if it had come in as a keyed map. -/
theorem update_ofPairs (pairs : List (Value × Stored)) :
    m.update (ofPairs pairs).pairs = m.update pairs := by
  have made : (ofPairs pairs).Keyed := empty_update pairs ▸ Keyed.empty.update pairs
  rw [made.update_pairs, ofPairs_eq_ofList, keyed.distinct.insertAll_ofList, update_eq_insertAll]

theorem update_update {n : KeyedMap} (other : n.Keyed) (pairs : List (Value × Stored)) :
    (m.update n.pairs).update pairs = m.update (n.update pairs).pairs := by
  rw [(other.update pairs).update_pairs, other.update_pairs, update_eq_insertAll,
    update_eq_insertAll, keyed.distinct.insertAll_insertAll other.distinct]

theorem update_self : m.update m.pairs = m := by
  rw [keyed.update_pairs, keyed.distinct.insertAll_self]

theorem pairs_update {n : KeyedMap} (other : n.Keyed) :
    (m.update n.pairs).pairs =
      (m.pairs.map fun pair => (n.get? pair.1.fingerprint).getD pair) ++
        n.pairs.filter fun pair => !m.has pair.1 := by
  have distinct : (n.entries.map Prod.fst).Nodup := other.distinct
  rw [other.update_pairs, pairs, Table.values, keyed.distinct.entries_insertAll distinct,
    List.map_append, keyed.entries_eq, List.map_map, List.map_map]
  congr 1
  rw [other.entries_eq, List.filter_map, List.map_map]
  exact List.map_id _

end Keyed

/-- To update is a monoid on keyed maps, with every map idempotent: keys stand where they first came
in, with the key and the value that last came in. A map value comes in as the keyed map that is made
of it. -/
theorem update_monoid {a b : KeyedMap} (first : a.Keyed) (second : b.Keyed) :
    (∀ c : KeyedMap, (a.update b.pairs).update c.pairs = a.update (b.update c.pairs).pairs) ∧
    a.update empty.pairs = a ∧ empty.update b.pairs = b ∧
    (a.update b.pairs).update b.pairs = a.update b.pairs ∧ a.update a.pairs = a ∧
    (a.update b.pairs).pairs =
      (a.pairs.map fun pair => (b.get? pair.1.fingerprint).getD pair) ++
        (b.pairs.filter fun pair => !a.has pair.1) ∧
    ∀ entries, a.update (Source.mapValue entries).pairs =
      a.update (Source.keyedMap (.ofEntries entries)).pairs := by
  refine ⟨fun c => first.update_update second c.pairs, rfl, ?_, ?_, first.update_self,
    first.pairs_update second, fun entries => ?_⟩
  · rw [empty_update, second.ofPairs_pairs]
  · rw [first.update_update second, second.update_self]
  · exact (first.update_ofPairs (tagEntries entries)).symm

def smallSizes : KeyedMap :=
  .ofEntries [(.number 0.0 "px", .null), (.string "gap", .null)]

def otherSizes : KeyedMap :=
  .ofEntries [(.string "width", .null), (.number (-0.0) "px", .bool true)]

theorem update_monoid_sizes :
    smallSizes.Keyed ∧ otherSizes.Keyed ∧
      (smallSizes.update otherSizes.pairs).update smallSizes.pairs =
        smallSizes.update (otherSizes.update smallSizes.pairs).pairs ∧
      (smallSizes.update otherSizes.pairs).update otherSizes.pairs =
        smallSizes.update otherSizes.pairs ∧
      (smallSizes.update otherSizes.pairs).pairs =
        [(.number (-0.0) "px", .tagged (.bool true)), (.string "gap", .tagged .null),
          (.string "width", .tagged .null)] := by
  have small : smallSizes.Keyed := (WellFormed.ofEntries _).keyed
  have other : otherSizes.Keyed := (WellFormed.ofEntries _).keyed
  obtain ⟨assoc, -, -, again, -, pairs, -⟩ := update_monoid small other
  exact ⟨small, other, assoc smallSizes, again, pairs.trans rfl⟩

end StyleValues.KeyedMap
