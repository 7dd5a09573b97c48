import StyleValues.Proofs.KeyedMap.DeepUpdate

/-! Keyed maps that stand for the same entries, whichever of the maps inside them are keyed maps of
their own and which are map values. No update tells them apart. -/

namespace StyleValues

theorem Stored.pairs?_eq_none_iff {s : Stored} : s.pairs? = none ↔ s.toValue.kind ≠ .map := by
  refine ⟨kind_ne_map_of_pairs?, fun scalar => ?_⟩
  by_contra isMap
  obtain ⟨pairs, found⟩ := Option.ne_none_iff_exists'.mp isMap
  rw [toValue_of_pairs? found] at scalar
  exact scalar rfl

namespace KeyedMap

theorem pairEntries_cons (pair : Value × Stored) (rest : List (Value × Stored)) :
    pairEntries (pair :: rest) = (pair.1, pair.2.toValue) :: pairEntries rest := rfl

theorem pairEntries_source (source : Source) :
    pairEntries source.pairs = source.toValue.entries?.getD [] := by
  by_cases isMap : source.toValue.kind = .map
  · rw [source.toValue_eq isMap]
    rfl
  · cases source with
    | keyedMap m => exact absurd rfl isMap
    | mapValue entries => exact absurd rfl isMap
    | stored s =>
      have none : s.pairs? = none := Stored.pairs?_eq_none_iff.mpr isMap
      have noEntries : s.toValue.entries? = Option.none := by
        cases form : s.toValue with
        | map entries => exact absurd (congrArg Value.kind form) isMap
        | _ => rfl
      rw [Source.pairs, Source.toValue, none, noEntries]
      rfl

theorem Reads.set {m : KeyedMap} {entries : List (Value × Value)} (reads : m.Reads entries)
    (key : Value) {s : Stored} (held : s.Satisfies WellFormed) :
    (m.set key s).Reads (entries ++ [(key, s.toValue)]) where
  wellFormed := closed_wellFormed.set reads.wellFormed held
  fingerprints_eq := by
    have wf : (m.set key s).WellFormed := closed_wellFormed.set reads.wellFormed held
    have keys : Value.keyFingerprints (entries ++ [(key, s.toValue)]) =
        Value.keyFingerprints entries ++ [key.fingerprint] := by simp [Value.keyFingerprints]
    rw [← wf.keys_eq, KeyedMap.set, Table.keys_insert, reads.wellFormed.keys_eq,
      reads.fingerprints_eq, keys, eraseDups_concat]
    simp only [List.mem_eraseDups]
  get?_eq fingerprint := by
    rw [KeyedMap.set, Table.get?_insert, Value.lastUnder?, findRev?_concat]
    by_cases here : fingerprint = key.fingerprint
    · simp [here]
    · have other : key.fingerprint ≠ fingerprint := Ne.symm here
      simp only [if_neg here, beq_iff_eq, if_neg other]
      exact reads.get?_eq fingerprint

theorem Reads.update {m : KeyedMap} {entries : List (Value × Value)} (reads : m.Reads entries)
    {pairs : List (Value × Stored)} (held : ∀ pair ∈ pairs, pair.2.Satisfies WellFormed) :
    (m.update pairs).Reads (entries ++ pairEntries pairs) := by
  induction pairs generalizing m entries with
  | nil =>
    rw [pairEntries, List.map_nil, List.append_nil]
    exact reads
  | cons pair rest ih =>
    obtain ⟨first, others⟩ := List.forall_mem_cons.mp held
    have updated := ih (reads.set pair.1 first) others
    rwa [List.append_assoc, List.singleton_append, ← pairEntries_cons, ← update_cons] at updated

def Alike (m n : KeyedMap) : Prop := ∃ entries, m.Reads entries ∧ n.Reads entries

/-- What two keys may hold, in one value form. -/
structure StoredAlike (s t : Stored) : Prop where
  wellFormed : s.Satisfies WellFormed
  wellFormed' : t.Satisfies WellFormed
  toValue_eq : s.toValue = t.toValue

structure PairsAlike (pairs others : List (Value × Stored)) : Prop where
  wellFormed : ∀ pair ∈ pairs, pair.2.Satisfies WellFormed
  wellFormed' : ∀ pair ∈ others, pair.2.Satisfies WellFormed
  entries_eq : pairEntries pairs = pairEntries others

namespace StoredAlike

variable {s t : Stored}

theorem of_keyedMap? (alike : StoredAlike s t) {m n : KeyedMap} (found : s.keyedMap? = some m)
    (found' : t.keyedMap? = some n) : m.Alike n := by
  obtain ⟨entries, form, reads⟩ := Stored.exists_reads_of_keyedMap? alike.wellFormed found
  obtain ⟨entries', form', reads'⟩ := Stored.exists_reads_of_keyedMap? alike.wellFormed' found'
  have same := alike.toValue_eq
  rw [form, form', Value.map.injEq] at same
  exact ⟨entries, reads, same ▸ reads'⟩

theorem of_pairs? (alike : StoredAlike s t) {pairs others : List (Value × Stored)}
    (found : s.pairs? = some pairs) (found' : t.pairs? = some others) :
    PairsAlike pairs others where
  wellFormed := closed_wellFormed.of_pairs? alike.wellFormed found
  wellFormed' := closed_wellFormed.of_pairs? alike.wellFormed' found'
  entries_eq := by
    have same := alike.toValue_eq
    rwa [Stored.toValue_of_pairs? found, Stored.toValue_of_pairs? found', Value.map.injEq] at same

end StoredAlike

theorem PairsAlike.exists_cons {key : Value} {s : Stored} {rest others : List (Value × Stored)}
    (alike : PairsAlike ((key, s) :: rest) others) :
    ∃ t behind, others = (key, t) :: behind ∧ StoredAlike s t ∧ PairsAlike rest behind := by
  obtain ⟨wf, wf', same⟩ := alike
  cases others with
  | nil => cases same
  | cons other behind =>
    obtain ⟨first, t⟩ := other
    rw [pairEntries_cons, pairEntries_cons, List.cons.injEq, Prod.mk.injEq] at same
    obtain ⟨⟨rfl, same⟩, sameRest⟩ := same
    obtain ⟨held, wf⟩ := List.forall_mem_cons.mp wf
    obtain ⟨held', wf'⟩ := List.forall_mem_cons.mp wf'
    exact ⟨t, behind, rfl, ⟨held, held', same⟩, wf, wf', sameRest⟩

theorem alike_of_toValue_eq {m n : ValueMap} (same : m.toValue = n.toValue) :
    m.map.Alike n.map := by
  have entries : m.map.toEntries = n.map.toEntries := Value.map.inj same
  exact ⟨m.map.toEntries, m.wellFormed.reads, entries ▸ n.wellFormed.reads⟩

theorem pairsAlike_of_toValue_eq {source other : MapSource}
    (same : source.toValue = other.toValue) :
    PairsAlike source.source.pairs other.source.pairs where
  wellFormed := source.satisfies
  wellFormed' := other.satisfies
  entries_eq := by
    have same : source.source.toValue = other.source.toValue := same
    rw [pairEntries_source, pairEntries_source, same]

namespace Alike

variable {m n : KeyedMap}

theorem toValue_eq (alike : m.Alike n) : m.toValue = n.toValue := by
  obtain ⟨entries, reads, reads'⟩ := alike
  rw [toValue, toValue, reads.toEntries_eq, reads'.toEntries_eq]

theorem find?_eq (alike : m.Alike n) (key : Value) :
    (m.find? key).map Stored.toValue = (n.find? key).map Stored.toValue := by
  obtain ⟨entries, reads, reads'⟩ := alike
  rw [← reads.child?_eq, ← reads'.child?_eq]

theorem of_find? (alike : m.Alike n) {key : Value} {s t : Stored} (found : m.find? key = some s)
    (found' : n.find? key = some t) : StoredAlike s t where
  wellFormed := closed_wellFormed.of_find? alike.choose_spec.1.wellFormed found
  wellFormed' := closed_wellFormed.of_find? alike.choose_spec.2.wellFormed found'
  toValue_eq := by
    have same := alike.find?_eq key
    rwa [found, found', Option.map_some, Option.map_some, Option.some.injEq] at same

theorem set (alike : m.Alike n) (key : Value) {s t : Stored} (held : StoredAlike s t) :
    (m.set key s).Alike (n.set key t) := by
  obtain ⟨entries, reads, reads'⟩ := alike
  refine ⟨_, reads.set key held.wellFormed, ?_⟩
  rw [held.toValue_eq]
  exact reads'.set key held.wellFormed'

theorem update (alike : m.Alike n) {pairs others : List (Value × Stored)}
    (comeIn : PairsAlike pairs others) : (m.update pairs).Alike (n.update others) := by
  obtain ⟨entries, reads, reads'⟩ := alike
  refine ⟨_, reads.update comeIn.wellFormed, ?_⟩
  rw [comeIn.entries_eq]
  exact reads'.update comeIn.wellFormed'

theorem bind_keyedMap?_eq_none_iff (alike : m.Alike n) (key : Value) :
    (m.find? key).bind Stored.keyedMap? = none ↔ (n.find? key).bind Stored.keyedMap? = none := by
  have same := alike.find?_eq key
  cases found : m.find? key <;> cases found' : n.find? key <;>
    simp only [found, found', Option.map_some, Option.map_none, reduceCtorEq,
      Option.some.injEq] at same
  · rfl
  · simp only [Option.bind_some, Stored.keyedMap?_eq_none_iff, Stored.pairs?_eq_none_iff, same]

theorem updatedValue (alike : m.Alike n) (key : Value) {new new' : Stored}
    (comes : StoredAlike new new')
    (below : ∀ (held : KeyedMap) pairs, new.pairs? = some pairs → ∀ (held' : KeyedMap) pairs',
      held.Alike held' → PairsAlike pairs pairs' →
      (held.deepUpdate pairs).Alike (held'.deepUpdate pairs')) :
    StoredAlike (m.updatedValue key new) (n.updatedValue key new') where
  wellFormed := closed_wellFormed.updatedValue alike.choose_spec.1.wellFormed comes.wellFormed
    fun _ _ _ => closed_wellFormed.deepUpdate
  wellFormed' := closed_wellFormed.updatedValue alike.choose_spec.2.wellFormed comes.wellFormed'
    fun _ _ _ => closed_wellFormed.deepUpdate
  toValue_eq := by
    have sameConflict : ((m.find? key).bind Stored.keyedMap? = none ∨ new.pairs? = none) ↔
        ((n.find? key).bind Stored.keyedMap? = none ∨ new'.pairs? = none) := by
      rw [alike.bind_keyedMap?_eq_none_iff, Stored.pairs?_eq_none_iff, Stored.pairs?_eq_none_iff,
        comes.toValue_eq]
    by_cases conflict : (m.find? key).bind Stored.keyedMap? = none ∨ new.pairs? = none
    · rw [updatedValue_of_conflict conflict, updatedValue_of_conflict (sameConflict.mp conflict)]
      exact comes.toValue_eq
    · have conflict' := mt sameConflict.mpr conflict
      simp only [not_or, Option.ne_none_iff_exists'] at conflict conflict'
      obtain ⟨⟨held, isMap⟩, pairs, comesIn⟩ := conflict
      obtain ⟨⟨held', isMap'⟩, pairs', comesIn'⟩ := conflict'
      rw [updatedValue_of_maps isMap comesIn, updatedValue_of_maps isMap' comesIn']
      obtain ⟨old, stored, isMap⟩ := Option.bind_eq_some_iff.mp isMap
      obtain ⟨old', stored', isMap'⟩ := Option.bind_eq_some_iff.mp isMap'
      have there := (alike.of_find? stored stored').of_keyedMap? isMap isMap'
      exact (below held pairs comesIn held' pairs' there
        (comes.of_pairs? comesIn comesIn')).toValue_eq

theorem deepUpdate {pairs others : List (Value × Stored)} (alike : m.Alike n)
    (comeIn : PairsAlike pairs others) : (m.deepUpdate pairs).Alike (n.deepUpdate others) := by
  induction m, pairs using mergeDeep.induct generalizing n others with
  | case1 m =>
    have none : others = [] := List.map_eq_nil_iff.mp comeIn.entries_eq.symm
    rw [none, deepUpdate_nil, deepUpdate_nil]
    exact alike
  | case2 m key new rest below ih =>
    obtain ⟨new', rest', rfl, comes, behind⟩ := comeIn.exists_cons
    have stored : StoredAlike (m.updatedValue key new) (n.updatedValue key new') :=
      alike.updatedValue key comes fun held pairs comesIn _ _ => below held pairs comesIn
    rw [deepUpdate_cons, deepUpdate_cons]
    exact ih _ (alike.set key stored) behind

end Alike

/-- Maps and sources in one value form are not told apart by an update, deep or not: the results are
in one value form too. The maps in them may be keyed maps or map values, and these may repeat
keys. -/
theorem toValue_updates_congr {m n : ValueMap} (same : m.toValue = n.toValue)
    {source other : MapSource} (sameSource : source.toValue = other.toValue) :
    (m.deepUpdate source).toValue = (n.deepUpdate other).toValue ∧
      (m.update source).toValue = (n.update other).toValue := by
  have alike : m.map.Alike n.map := alike_of_toValue_eq same
  have comeIn : PairsAlike source.source.pairs other.source.pairs :=
    pairsAlike_of_toValue_eq sameSource
  exact ⟨(alike.deepUpdate comeIn).toValue_eq, (alike.update comeIn).toValue_eq⟩

def heldSizes : ValueMap :=
  ValueMap.empty.set (.string "a") (.nested (.ofEntries [(.string "x", .null)]))

def rawSizes : ValueMap :=
  ValueMap.empty.set (.string "a") (.tagged (.map [(.string "x", .null)]))

def heldSource : MapSource :=
  .held (.nested ((ValueMap.empty.set (.string "a")
      (.tagged (.map [(.string "x", .bool true), (.string "x", .bool false)]))).set (.string "b")
      (.nested rawSizes)))

def rawSource : MapSource :=
  .mapValue [(.string "a", .map [(.string "x", .bool true), (.string "x", .bool false)]),
    (.string "b", rawSizes.toValue)]

theorem toValue_updates_congr_sizes :
    heldSizes.toValue = rawSizes.toValue ∧ heldSource.toValue = rawSource.toValue ∧
      (heldSizes.deepUpdate heldSource).toValue = (rawSizes.deepUpdate rawSource).toValue ∧
      (heldSizes.update heldSource).toValue = (rawSizes.update rawSource).toValue := by
  have maps : heldSizes.toValue = rawSizes.toValue := rfl
  have sources : heldSource.toValue = rawSource.toValue := rfl
  exact ⟨maps, sources, toValue_updates_congr maps sources⟩

end KeyedMap

end StyleValues
