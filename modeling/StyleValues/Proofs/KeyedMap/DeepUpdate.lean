import StyleValues.Proofs.KeyedMap.Closed
import StyleValues.Proofs.KeyedMap.ValueForm

/-! What a deep update leaves along every path of keys, for a source that repeats no key: values of
the source win, two maps are merged, and all else stays. -/

namespace StyleValues

namespace Stored

theorem toValue_of_pairs? {s : Stored} {pairs : List (Value × Stored)}
    (found : s.pairs? = some pairs) : s.toValue = .map (KeyedMap.pairEntries pairs) := by
  match s with
  | .nested m =>
    rw [← Option.some.inj found, ← KeyedMap.toEntries_eq]
    rfl
  | .tagged (.map entries) =>
    rw [← Option.some.inj found, KeyedMap.pairEntries_tagEntries]
    rfl

theorem kind_ne_map_of_pairs? {s : Stored} (found : s.pairs? = none) : s.toValue.kind ≠ .map := by
  cases s with
  | nested m => cases found
  | tagged v =>
    cases v with
    | map entries => cases found
    | _ => exact nofun

theorem exists_reads_of_keyedMap? {s : Stored} {held : KeyedMap}
    (wf : s.Satisfies KeyedMap.WellFormed) (found : s.keyedMap? = some held) :
    ∃ entries, s.toValue = .map entries ∧ held.Reads entries := by
  match s with
  | .nested m =>
    rw [← Option.some.inj found]
    exact ⟨_, rfl, (wf m rfl).reads⟩
  | .tagged (.map entries) =>
    rw [← Option.some.inj found]
    exact ⟨entries, rfl, KeyedMap.reads_ofEntries entries⟩

theorem keyedMap?_eq_none_iff {s : Stored} : s.keyedMap? = none ↔ s.pairs? = none := by
  cases s with
  | nested m => exact ⟨nofun, nofun⟩
  | tagged v =>
    cases v with
    | map entries => exact ⟨nofun, nofun⟩
    | _ => exact ⟨fun _ => rfl, fun _ => rfl⟩

end Stored

namespace Source

theorem toValue_eq {source : Source} (isMap : source.toValue.kind = .map) :
    source.toValue = .map (KeyedMap.pairEntries source.pairs) := by
  cases source with
  | keyedMap m => rw [toValue, KeyedMap.toValue, KeyedMap.toEntries_eq, pairs]
  | mapValue entries => rw [toValue, pairs, KeyedMap.pairEntries_tagEntries]
  | stored s =>
    cases found : s.pairs? with
    | none => exact absurd isMap (Stored.kind_ne_map_of_pairs? found)
    | some pairs =>
      rw [toValue, Source.pairs, found]
      exact Stored.toValue_of_pairs? found

end Source

namespace KeyedMap

theorem updatedValue_congr {m n : KeyedMap} {key other : Value}
    (same : m.find? key = n.find? other) (new : Stored) :
    m.updatedValue key new = n.updatedValue other new := by
  rw [updatedValue, updatedValue, same]

theorem find?_deepUpdate_of_not_mem (m : KeyedMap) {pairs : List (Value × Stored)} {key : Value}
    (absent : key.fingerprint ∉ pairs.map fun pair => pair.1.fingerprint) :
    (m.deepUpdate pairs).find? key = m.find? key := by
  induction pairs generalizing m with
  | nil => rw [deepUpdate_nil]
  | cons pair rest ih =>
    rw [List.map_cons, List.mem_cons, not_or] at absent
    rw [deepUpdate_cons, ih _ absent.2, find?_set, if_neg absent.1]

/-- What comes in meets the map as it was, because no other key of the source touches its place. -/
theorem find?_deepUpdate_of_mem (m : KeyedMap) {pairs : List (Value × Stored)} {key k : Value}
    {new : Stored} (distinct : (pairs.map fun pair => pair.1.fingerprint).Nodup)
    (member : (k, new) ∈ pairs) (same : k.fingerprint = key.fingerprint) :
    (m.deepUpdate pairs).find? key = some (m.updatedValue key new) := by
  induction pairs generalizing m with
  | nil => exact absurd member List.not_mem_nil
  | cons pair rest ih =>
    obtain ⟨first, s⟩ := pair
    rw [List.map_cons, List.nodup_cons] at distinct
    rw [deepUpdate_cons]
    rcases List.mem_cons.mp member with here | member
    · cases here
      rw [find?_deepUpdate_of_not_mem _ (same ▸ distinct.1), find?_set, if_pos same.symm]
      exact congrArg some (updatedValue_congr (m.find?_congr same) new)
    · have other : key.fingerprint ≠ first.fingerprint := by
        intro here
        exact distinct.1 (List.mem_map.mpr ⟨_, member, same.trans here⟩)
      rw [ih _ distinct.2 member]
      refine congrArg some (updatedValue_congr ?_ new)
      rw [find?_set, if_neg other]

theorem keys_deepUpdate (m : KeyedMap) {pairs : List (Value × Stored)}
    (distinct : (pairs.map fun pair => pair.1.fingerprint).Nodup) :
    (m.deepUpdate pairs).keys =
      m.keys ++ (pairs.map fun pair => pair.1.fingerprint).filter (· ∉ m.keys) := by
  induction pairs generalizing m with
  | nil => rw [deepUpdate_nil, List.map_nil, List.filter_nil, List.append_nil]
  | cons pair rest ih =>
    rw [List.map_cons, List.nodup_cons] at distinct
    rw [deepUpdate_cons, ih _ distinct.2, set, Table.keys_insert, List.map_cons]
    by_cases found : pair.1.fingerprint ∈ m.keys
    · rw [if_pos found, List.filter_cons_of_neg (by simpa using found)]
    · rw [if_neg found, List.filter_cons_of_pos (by simpa using found), List.append_assoc,
        List.singleton_append]
      congr 2
      apply List.filter_congr
      intro fingerprint member
      have other : fingerprint ≠ pair.1.fingerprint := fun same => distinct.1 (same ▸ member)
      simp [other]

/-- Pairs as a merge takes them in, with well-formed keyed maps and no key twice at any depth. -/
structure Unrepeated (pairs : List (Value × Stored)) : Prop where
  wellFormed : ∀ pair ∈ pairs, pair.2.Satisfies WellFormed
  distinct : (Value.map (pairEntries pairs)).DistinctKeys

namespace Unrepeated

variable {pairs : List (Value × Stored)}

theorem nodup (unrepeated : Unrepeated pairs) :
    (pairs.map fun pair => pair.1.fingerprint).Nodup := by
  rw [← keyFingerprints_pairEntries]
  exact unrepeated.distinct.nodup

theorem child?_of_mem (unrepeated : Unrepeated pairs) {key k : Value} {new : Stored}
    (member : (k, new) ∈ pairs) (same : k.fingerprint = key.fingerprint) :
    (Value.map (pairEntries pairs)).child? key = some new.toValue := by
  rw [Value.child?, lastUnder?_pairEntries,
    (findRev?_eq_some_iff unrepeated.nodup).mpr ⟨member, same⟩]
  rfl

theorem child?_of_not_mem {key : Value}
    (absent : key.fingerprint ∉ pairs.map fun pair => pair.1.fingerprint) :
    (Value.map (pairEntries pairs)).child? key = none := by
  rw [Value.child?, lastUnder?_pairEntries, List.findRev?_eq_find?_reverse,
    List.find?_eq_none.mpr]
  · rfl
  · intro pair member same
    rw [List.mem_reverse] at member
    exact absent (List.mem_map.mpr ⟨pair, member, by simpa using same⟩)

theorem inner (unrepeated : Unrepeated pairs) {k : Value} {new : Stored}
    {below : List (Value × Stored)} (member : (k, new) ∈ pairs)
    (comesIn : new.pairs? = some below) : Unrepeated below where
  wellFormed := closed_wellFormed.of_pairs? (unrepeated.wellFormed _ member) comesIn
  distinct := by
    rw [← Stored.toValue_of_pairs? comesIn]
    exact unrepeated.distinct.child (unrepeated.child?_of_mem member rfl)

end Unrepeated

/-- All that a deep update can do at one key: leave what is there, put in what comes, or merge the
two where both are maps. -/
theorem child?_deepUpdate {m : KeyedMap} {entries : List (Value × Value)}
    {pairs : List (Value × Stored)} (reads : m.Reads entries) (unrepeated : Unrepeated pairs)
    (key : Value) :
    ((Value.map (pairEntries pairs)).child? key = none ∧
      (m.deepUpdate pairs).toValue.child? key = (Value.map entries).child? key) ∨
    (∃ v, (Value.map (pairEntries pairs)).child? key = some v ∧
      (m.deepUpdate pairs).toValue.child? key = some v ∧
      (v.kind ≠ .map ∨ ∀ w, (Value.map entries).child? key = some w → w.kind ≠ .map)) ∨
    ∃ (held : KeyedMap) (there : List (Value × Value)) (below : List (Value × Stored)),
      (Value.map (pairEntries pairs)).child? key = some (.map (pairEntries below)) ∧
      (Value.map entries).child? key = some (.map there) ∧ held.Reads there ∧ Unrepeated below ∧
      (m.deepUpdate pairs).toValue.child? key = some (held.deepUpdate below).toValue := by
  have wf : (m.deepUpdate pairs).WellFormed :=
    closed_wellFormed.deepUpdate reads.wellFormed unrepeated.wellFormed
  rw [wf.child?_toValue, reads.child?_eq]
  by_cases comes : key.fingerprint ∈ pairs.map fun pair => pair.1.fingerprint
  · obtain ⟨⟨k, new⟩, member, same⟩ := List.mem_map.mp comes
    rw [unrepeated.child?_of_mem member same,
      find?_deepUpdate_of_mem m unrepeated.nodup member same]
    refine .inr ?_
    rcases m.updatedValue_cases key new with ⟨conflict, kept⟩ |
      ⟨old, held, below, found, isMap, comesIn, merged⟩
    · rw [kept]
      refine .inl ⟨new.toValue, rfl, rfl, ?_⟩
      rcases conflict with scalar | scalar
      · refine .inr fun w there => ?_
        obtain ⟨old, found, rfl⟩ := Option.map_eq_some_iff.mp there
        rw [found, Option.bind_some, Stored.keyedMap?_eq_none_iff] at scalar
        exact Stored.kind_ne_map_of_pairs? scalar
      · exact .inl (Stored.kind_ne_map_of_pairs? scalar)
    · rw [merged]
      have old_wf : old.Satisfies WellFormed := closed_wellFormed.of_find? reads.wellFormed found
      obtain ⟨there, form, held_reads⟩ := Stored.exists_reads_of_keyedMap? old_wf isMap
      refine .inr ⟨held, there, below, ?_, ?_, held_reads, unrepeated.inner member comesIn, rfl⟩
      · rw [Stored.toValue_of_pairs? comesIn]
      · rw [found, Option.map_some, form]
  · refine .inl ⟨Unrepeated.child?_of_not_mem comes, ?_⟩
    rw [find?_deepUpdate_of_not_mem m comes]

section Paths

variable {m : KeyedMap} {entries : List (Value × Value)} {pairs : List (Value × Stored)}

theorem follow?_deepUpdate_of_scalar (reads : m.Reads entries) (unrepeated : Unrepeated pairs)
    {path : List Value} {v : Value}
    (reached : (Value.map (pairEntries pairs)).follow? path = some v) (scalar : v.kind ≠ .map) :
    (m.deepUpdate pairs).toValue.follow? path = some v := by
  induction path generalizing m entries pairs with
  | nil => exact absurd (congrArg Value.kind (Option.some.inj reached)).symm scalar
  | cons key path ih =>
    rw [Value.follow?_cons] at reached ⊢
    rcases child?_deepUpdate reads unrepeated key with ⟨absent, -⟩ | ⟨w, comes, stays, -⟩ |
      ⟨held, there, below, comes, -, reads, unrepeated, merged⟩
    · rw [absent] at reached
      cases reached
    · rw [comes] at reached
      rw [stays]
      exact reached
    · rw [comes] at reached
      rw [merged]
      exact ih reads unrepeated reached

theorem follow?_deepUpdate_of_no_map (reads : m.Reads entries) (unrepeated : Unrepeated pairs)
    {path : List Value} {v : Value}
    (reached : (Value.map (pairEntries pairs)).follow? path = some v)
    (noMap : ∀ w, (Value.map entries).follow? path = some w → w.kind ≠ .map) :
    (m.deepUpdate pairs).toValue.follow? path = some v := by
  induction path generalizing m entries pairs with
  | nil => exact absurd rfl (noMap _ rfl)
  | cons key path ih =>
    rw [Value.follow?_cons] at reached ⊢
    rcases child?_deepUpdate reads unrepeated key with ⟨absent, -⟩ | ⟨w, comes, stays, -⟩ |
      ⟨held, there, below, comes, found, reads, unrepeated, merged⟩
    · rw [absent] at reached
      cases reached
    · rw [comes] at reached
      rw [stays]
      exact reached
    · rw [comes] at reached
      rw [merged]
      refine ih reads unrepeated reached fun w inside => noMap w ?_
      rw [Value.follow?_cons, found]
      exact inside

theorem follow?_deepUpdate_of_stopsBefore (reads : m.Reads entries)
    (unrepeated : Unrepeated pairs) {path : List Value}
    (unreached : (Value.map (pairEntries pairs)).follow? path = none)
    (stops : (Value.map (pairEntries pairs)).StopsBefore path) :
    (m.deepUpdate pairs).toValue.follow? path = none := by
  induction path generalizing m entries pairs with
  | nil => cases unreached
  | cons key path ih =>
    obtain ⟨inner, at_key, stops⟩ := stops.exists_child rfl
    rw [Value.follow?_cons] at unreached ⊢
    rcases child?_deepUpdate reads unrepeated key with ⟨absent, -⟩ | ⟨w, comes, stays, -⟩ |
      ⟨held, there, below, comes, -, reads, unrepeated, merged⟩
    · rw [absent] at at_key
      cases at_key
    · rw [comes] at unreached
      rw [stays]
      exact unreached
    · rw [comes] at unreached at_key
      cases at_key
      rw [merged]
      exact ih reads unrepeated unreached stops

theorem follow?_deepUpdate_of_not_stopsBefore (reads : m.Reads entries)
    (unrepeated : Unrepeated pairs) {path : List Value}
    (unreached : (Value.map (pairEntries pairs)).follow? path = none)
    (proceeds : ¬(Value.map (pairEntries pairs)).StopsBefore path) :
    (m.deepUpdate pairs).toValue.follow? path = (Value.map entries).follow? path := by
  induction path generalizing m entries pairs with
  | nil => cases unreached
  | cons key path ih =>
    rw [Value.follow?_cons] at unreached
    rw [Value.follow?_cons, Value.follow?_cons]
    rcases child?_deepUpdate reads unrepeated key with ⟨-, stays⟩ | ⟨w, comes, stays, apart⟩ |
      ⟨held, there, below, comes, found, reads, unrepeated, merged⟩
    · rw [stays]
    · rw [comes, Option.bind_some] at unreached
      rw [stays, Option.bind_some, unreached]
      cases path with
      | nil => cases unreached
      | cons next path =>
        rcases apart with scalar | noMap
        · exact absurd (.child comes (Value.stopsBefore_cons_of_scalar scalar next path)) proceeds
        · cases found : (Value.map entries).child? key with
          | none => rfl
          | some old => exact (Value.follow?_cons_eq_none (noMap old found) next path).symm
    · rw [comes] at unreached
      rw [merged, found]
      exact ih reads unrepeated unreached fun stops => proceeds (.child comes stops)

theorem keyFingerprints_follow?_deepUpdate (reads : m.Reads entries)
    (unrepeated : Unrepeated pairs) {path : List Value} {incoming there : List (Value × Value)}
    (reached : (Value.map (pairEntries pairs)).follow? path = some (.map incoming))
    (met : (Value.map entries).follow? path = some (.map there)) :
    ∃ merged, (m.deepUpdate pairs).toValue.follow? path = some (.map merged) ∧
      Value.keyFingerprints merged = (Value.keyFingerprints there).eraseDups ++
        (Value.keyFingerprints incoming).filter (· ∉ Value.keyFingerprints there) := by
  induction path generalizing m entries pairs with
  | nil =>
    cases reached
    cases met
    refine ⟨_, rfl, ?_⟩
    have wf : (m.deepUpdate pairs).WellFormed :=
      closed_wellFormed.deepUpdate reads.wellFormed unrepeated.wellFormed
    rw [keyFingerprints_toEntries, ← wf.keys_eq, keys_deepUpdate m unrepeated.nodup,
      reads.wellFormed.keys_eq, reads.fingerprints_eq, keyFingerprints_pairEntries]
    simp only [List.mem_eraseDups]
  | cons key path ih =>
    rw [Value.follow?_cons] at reached met ⊢
    rcases child?_deepUpdate reads unrepeated key with ⟨absent, -⟩ | ⟨w, comes, -, apart⟩ |
      ⟨held, inside, below, comes, found, reads, unrepeated, merged⟩
    · rw [absent] at reached
      cases reached
    · obtain ⟨old, found, met⟩ := Option.bind_eq_some_iff.mp met
      rw [comes] at reached
      rcases apart with scalar | noMap
      · exact absurd (Value.kind_eq_map_of_follow? reached) scalar
      · exact absurd (Value.kind_eq_map_of_follow? met) (noMap old found)
    · rw [comes] at reached
      rw [found] at met
      rw [merged]
      exact ih reads unrepeated reached met

end Paths

/-- What a deep update leaves along a path. What the source has wins if it is no map, or if no map
was there. Where the source has nothing, what was there stays, unless the source has put a value in
the way. Where both have a map, the keys of the old one come first; the empty path says so of the
whole. -/
theorem follow?_deepUpdate (m : ValueMap) {source : MapSource}
    (isMap : source.toValue.kind = .map) (distinct : source.toValue.DistinctKeys)
    (path : List Value) :
    (∀ v, source.toValue.follow? path = some v → v.kind ≠ .map →
      (m.deepUpdate source).toValue.follow? path = some v) ∧
    (∀ v, source.toValue.follow? path = some v →
      (∀ w, m.toValue.follow? path = some w → w.kind ≠ .map) →
      (m.deepUpdate source).toValue.follow? path = some v) ∧
    (source.toValue.follow? path = none → source.toValue.StopsBefore path →
      (m.deepUpdate source).toValue.follow? path = none) ∧
    (source.toValue.follow? path = none → ¬source.toValue.StopsBefore path →
      (m.deepUpdate source).toValue.follow? path = m.toValue.follow? path) ∧
    (∀ incoming there, source.toValue.follow? path = some (.map incoming) →
      m.toValue.follow? path = some (.map there) →
      ∃ merged, (m.deepUpdate source).toValue.follow? path = some (.map merged) ∧
        Value.keyFingerprints merged = (Value.keyFingerprints there).eraseDups ++
          (Value.keyFingerprints incoming).filter (· ∉ Value.keyFingerprints there)) := by
  have entries : source.toValue = .map (pairEntries source.source.pairs) :=
    source.source.toValue_eq isMap
  rw [entries] at distinct ⊢
  have reads : m.map.Reads m.map.toEntries := m.wellFormed.reads
  have unrepeated : Unrepeated source.source.pairs := ⟨source.satisfies, distinct⟩
  refine ⟨?_, ?_, ?_, ?_, ?_⟩
  · exact fun v reached scalar => follow?_deepUpdate_of_scalar reads unrepeated reached scalar
  · exact fun v reached noMap =>
      follow?_deepUpdate_of_no_map reads unrepeated reached noMap
  · exact fun unreached stops =>
      follow?_deepUpdate_of_stopsBefore reads unrepeated unreached stops
  · exact fun unreached proceeds =>
      follow?_deepUpdate_of_not_stopsBefore reads unrepeated unreached proceeds
  · exact fun incoming there reached met =>
      keyFingerprints_follow?_deepUpdate reads unrepeated reached met

def sizes : ValueMap :=
  ValueMap.empty.set (.string "a") (.tagged (.map
    [(.string "x", .bool true), (.string "y", .bool false), (.string "x", .string "last")]))

def newSizes : MapSource :=
  .mapValue [(.string "a", .map [(.string "z", .null), (.string "x", .null)])]

/-- The old map repeats a key. The new one comes in with another order and one more key. -/
theorem follow?_deepUpdate_sizes :
    newSizes.toValue.kind = .map ∧ newSizes.toValue.DistinctKeys ∧
      (sizes.deepUpdate newSizes).toValue.follow? [.string "a", .string "x"] = some .null ∧
      (sizes.deepUpdate newSizes).toValue.follow? [.string "a", .string "y"] =
        some (.bool false) ∧
      ∃ merged, (sizes.deepUpdate newSizes).toValue.follow? [.string "a"] = some (.map merged) ∧
        Value.keyFingerprints merged = ["string:x", "string:y", "string:z"] := by
  have distinct : newSizes.toValue.DistinctKeys := by
    refine Value.distinctKeys_map (by decide) fun entry member => ?_
    rw [List.mem_singleton.mp member]
    refine Value.distinctKeys_map (by decide) fun entry member => ?_
    apply Value.distinctKeys_of_scalar
    revert entry
    decide
  have at_x := follow?_deepUpdate sizes rfl distinct [.string "a", .string "x"]
  have at_y := follow?_deepUpdate sizes rfl distinct [.string "a", .string "y"]
  have at_a := follow?_deepUpdate sizes rfl distinct [.string "a"]
  refine ⟨rfl, distinct, at_x.1 _ rfl nofun, ?_, at_a.2.2.2.2 _ _ rfl rfl⟩
  refine at_y.2.2.2.1 rfl fun stops => ?_
  obtain ⟨inner, found, stops⟩ := stops.exists_child rfl
  cases found
  obtain ⟨inner, found, -⟩ := stops.exists_child rfl
  cases found

end KeyedMap

end StyleValues
