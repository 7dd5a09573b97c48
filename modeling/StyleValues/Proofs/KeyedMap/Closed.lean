import StyleValues.Proofs.KeyedMap.Lookup
import StyleValues.Proofs.KeyedMap.Merging

/-! Properties of keyed maps that every merge keeps, whatever its resolver does, because single sets
keep them. -/

namespace StyleValues

/-- A value has the property of keyed maps as it holds none; a keyed map has it or not. -/
def Stored.Satisfies (P : KeyedMap → Prop) (s : Stored) : Prop :=
  ∀ n, s = .nested n → P n

/-- The recorded computation does what the plain one does and appends its calls. If these are
answered with what satisfies `P`, the result has the property `Q`. -/
def Traced (P : KeyedMap → Prop) (recorded : StateM (σ × List Call) α) (plain : StateM σ α)
    (Q : α → Prop) : Prop :=
  ∀ memory calls, ∃ more,
    recorded.run (memory, calls) =
        ((plain.run memory).1, (plain.run memory).2, calls ++ more) ∧
      ((∀ call ∈ more, call.answer.Satisfies P) → Q (plain.run memory).1)

namespace Traced

variable {P : KeyedMap → Prop} {recorded : StateM (σ × List Call) α} {plain : StateM σ α}
  {Q : α → Prop}

theorem pure {a : α} (h : Q a) : Traced (σ := σ) P (Pure.pure a) (Pure.pure a) Q := by
  intro memory calls
  exact ⟨[], by simp; rfl, fun _ => h⟩

theorem imp {R : α → Prop} (traced : Traced P recorded plain Q) (weaken : ∀ a, Q a → R a) :
    Traced P recorded plain R := by
  intro memory calls
  obtain ⟨more, same, holds⟩ := traced memory calls
  exact ⟨more, same, fun answers => weaken _ (holds answers)⟩

private theorem run_bind (x : StateM σ α) (f : α → StateM σ β) (memory : σ) :
    (x >>= f).run memory = (f (x.run memory).1).run (x.run memory).2 := rfl

/-- What follows is traced whatever it starts from; the property of the start is there for its
result only. -/
theorem bind {f : α → StateM (σ × List Call) β} {g : α → StateM σ β} {R : β → Prop}
    (first : Traced P recorded plain Q)
    (next : ∀ a, Traced P (f a) (g a) fun b => Q a → R b) :
    Traced P (recorded >>= f) (plain >>= g) R := by
  intro memory calls
  obtain ⟨more, same, holds⟩ := first memory calls
  obtain ⟨behind, same', holds'⟩ := next (plain.run memory).1 (plain.run memory).2 (calls ++ more)
  refine ⟨more ++ behind, ?_, fun answers => ?_⟩
  · rw [run_bind, same, same', run_bind, List.append_assoc]
  · simp only [List.mem_append] at answers
    exact holds' (fun call found => answers call (.inr found))
      (holds fun call found => answers call (.inl found))

theorem map {f : α → β} {R : β → Prop} (traced : Traced P recorded plain Q)
    (image : ∀ a, Q a → R (f a)) : Traced P (f <$> recorded) (f <$> plain) R := by
  rw [map_eq_pure_bind, map_eq_pure_bind]
  apply traced.bind
  intro a memory calls
  exact ⟨[], by simp; rfl, fun _ => image a⟩

theorem call (resolve : Resolver (StateM σ)) (key : Value) (new old : Stored) :
    Traced P (resolve.recorded key new old) (resolve key new old) (Stored.Satisfies P) := by
  intro memory calls
  exact ⟨[⟨key, new, old, _⟩], rfl, fun answers => answers _ List.mem_cons_self⟩

end Traced

namespace KeyedMap

theorem satisfies_of_mem_tagEntries {P : KeyedMap → Prop} {entries : List (Value × Value)} :
    ∀ pair ∈ tagEntries entries, pair.2.Satisfies P := by
  intro pair member n same
  obtain ⟨entry, -, rfl⟩ := List.mem_map.mp member
  cases same

/-- A property that map values give, that a set or a delete keeps, and that a keyed map shares with
those it holds. Nothing else is ever done to a keyed map, so all operations keep it. -/
structure Closed (P : KeyedMap → Prop) : Prop where
  empty : P .empty
  ofEntries : ∀ entries, P (.ofEntries entries)
  set : ∀ {m key s}, P m → s.Satisfies P → P (m.set key s)
  delete : ∀ {m key}, P m → P (m.delete key)
  inner : ∀ {m key n}, P m → (key, Stored.nested n) ∈ m.pairs → P n

namespace Closed

variable {P : KeyedMap → Prop}

theorem of_find? (closed : Closed P) {m : KeyedMap} {key : Value} {s : Stored} (h : P m)
    (found : m.find? key = some s) : s.Satisfies P := by
  rintro n rfl
  obtain ⟨⟨k, held⟩, member, rfl⟩ := Option.map_eq_some_iff.mp found
  exact closed.inner h (mem_pairs.mpr ⟨_, Table.mem_of_find member⟩)

theorem of_keyedMap? (closed : Closed P) {s : Stored} {m : KeyedMap} (h : s.Satisfies P)
    (found : s.keyedMap? = some m) : P m := by
  match s with
  | .nested n =>
    rw [← Option.some.inj found]
    exact h n rfl
  | .tagged (.map entries) =>
    rw [← Option.some.inj found]
    exact closed.ofEntries entries

theorem of_mem (closed : Closed P) {m : KeyedMap} (h : P m) :
    ∀ pair ∈ m.pairs, pair.2.Satisfies P := by
  rintro ⟨key, s⟩ member n rfl
  exact closed.inner h member

theorem of_pairs? (closed : Closed P) {s : Stored} {pairs : List (Value × Stored)}
    (h : s.Satisfies P) (found : s.pairs? = some pairs) : ∀ pair ∈ pairs, pair.2.Satisfies P := by
  match s with
  | .nested n =>
    rw [← Option.some.inj found]
    exact closed.of_mem (h n rfl)
  | .tagged (.map entries) =>
    rw [← Option.some.inj found]
    exact satisfies_of_mem_tagEntries

theorem satisfies_of_holds (closed : Closed P) {source : Source}
    (h : ∀ n, source.Holds n → P n) : ∀ pair ∈ source.pairs, pair.2.Satisfies P := by
  cases source with
  | keyedMap m => exact closed.of_mem (h m rfl)
  | mapValue entries => exact satisfies_of_mem_tagEntries
  | stored s =>
    dsimp only [Source.pairs]
    cases comesIn : s.pairs? with
    | none => exact fun pair member => absurd member List.not_mem_nil
    | some pairs => exact closed.of_pairs? h comesIn

theorem traced_mergeFlat (closed : Closed P) (resolve : Resolver (StateM σ)) (m : KeyedMap)
    (pairs : List (Value × Stored)) :
    Traced P (m.mergeFlat resolve.recorded pairs) (m.mergeFlat resolve pairs) fun merged =>
      P m → (∀ pair ∈ pairs, pair.2.Satisfies P) → P merged := by
  induction m, pairs using mergeFlat.induct with
  | case1 m => exact Traced.pure fun h _ => h
  | case2 m key new rest ih =>
    rw [mergeFlat, mergeFlat]
    apply Traced.bind (Q := fun value => new.Satisfies P → value.Satisfies P)
    · cases m.find? key with
      | none => exact Traced.pure id
      | some old => exact (Traced.call resolve key new old).imp fun _ answered _ => answered
    · intro value
      refine (ih value).imp fun merged merges stored h held => ?_
      exact merges (closed.set h (stored (held _ List.mem_cons_self)))
        fun pair found => held pair (List.mem_cons_of_mem _ found)

/-- As for the flat merge. What is merged into a copy below a key comes from both maps. -/
theorem traced_mergeDeep (closed : Closed P) (resolve : Resolver (StateM σ)) (m : KeyedMap)
    (pairs : List (Value × Stored)) :
    Traced P (m.mergeDeep resolve.recorded pairs) (m.mergeDeep resolve pairs) fun merged =>
      P m → (∀ pair ∈ pairs, pair.2.Satisfies P) → P merged := by
  induction m, pairs using mergeDeep.induct with
  | case1 m =>
    rw [mergeDeep_nil, mergeDeep_nil]
    exact Traced.pure fun h _ => h
  | case2 m key new rest below ih =>
    rw [mergeDeep_cons, mergeDeep_cons]
    apply Traced.bind (Q := fun value => P m → new.Satisfies P → value.Satisfies P)
    · cases stored : m.find? key with
      | none =>
        rw [mergedValue_of_absent _ stored, mergedValue_of_absent _ stored]
        exact Traced.pure fun _ held => held
      | some old =>
        by_cases conflict : old.keyedMap? = none ∨ new.pairs? = none
        · rw [mergedValue_of_conflict _ stored conflict, mergedValue_of_conflict _ stored conflict]
          exact (Traced.call resolve key new old).imp fun _ answered _ _ => answered
        · simp only [not_or, Option.ne_none_iff_exists'] at conflict
          obtain ⟨⟨held, isMap⟩, pairs, comesIn⟩ := conflict
          rw [mergedValue_of_maps _ stored isMap comesIn,
            mergedValue_of_maps _ stored isMap comesIn]
          apply (below held pairs comesIn).map
          rintro merged merges h brought n ⟨⟩
          exact merges (closed.of_keyedMap? (closed.of_find? h stored) isMap)
            (closed.of_pairs? brought comesIn)
    · intro value
      refine (ih value).imp fun merged merges stored h held => ?_
      exact merges (closed.set h (stored h (held _ List.mem_cons_self)))
        fun pair found => held pair (List.mem_cons_of_mem _ found)

theorem update (closed : Closed P) {m : KeyedMap} {pairs : List (Value × Stored)} (h : P m)
    (held : ∀ pair ∈ pairs, pair.2.Satisfies P) : P (m.update pairs) := by
  induction pairs generalizing m with
  | nil => exact h
  | cons pair rest ih =>
    rw [update_cons]
    exact ih (closed.set h (held _ List.mem_cons_self))
      fun pair found => held pair (List.mem_cons_of_mem _ found)

theorem updatedValue (closed : Closed P) {m : KeyedMap} {key : Value} {new : Stored} (h : P m)
    (brought : new.Satisfies P)
    (below : ∀ (held : KeyedMap) pairs, new.pairs? = some pairs → P held →
      (∀ pair ∈ pairs, pair.2.Satisfies P) → P (held.deepUpdate pairs)) :
    (m.updatedValue key new).Satisfies P := by
  rcases m.updatedValue_cases key new with ⟨-, same⟩ |
    ⟨old, held, pairs, found, isMap, comesIn, same⟩ <;> rw [same]
  · exact brought
  · rintro n ⟨⟩
    exact below held pairs comesIn (closed.of_keyedMap? (closed.of_find? h found) isMap)
      (closed.of_pairs? brought comesIn)

theorem deepUpdate (closed : Closed P) {m : KeyedMap} {pairs : List (Value × Stored)} (h : P m)
    (held : ∀ pair ∈ pairs, pair.2.Satisfies P) : P (m.deepUpdate pairs) := by
  induction m, pairs using mergeDeep.induct with
  | case1 m => exact (deepUpdate_nil m).symm ▸ h
  | case2 m key new rest below ih =>
    obtain ⟨brought, others⟩ := List.forall_mem_cons.mp held
    have stored : (m.updatedValue key new).Satisfies P := closed.updatedValue h brought below
    rw [deepUpdate_cons]
    exact ih _ (closed.set h stored) others

end Closed

theorem closed_wellFormed : Closed WellFormed where
  empty := WellFormed.empty
  ofEntries := WellFormed.ofEntries
  set {_ _ s} wf held := by
    refine wf.set _ ?_
    cases s with
    | tagged v => exact trivial
    | nested n => exact held n rfl
  delete wf := wf.delete _
  inner wf member := wf.of_mem member

end KeyedMap

/-- What may come in where all keyed maps are as their operations leave them. -/
structure MapSource where
  source : Source
  wellFormed : ∀ m : KeyedMap, source.Holds m → m.WellFormed

namespace MapSource

def mapValue (entries : List (Value × Value)) : MapSource := ⟨.mapValue entries, fun _ => nofun⟩

def held (s : Held) : MapSource where
  source := .stored s.stored
  wellFormed m isMap := by
    have wf := s.wellFormed
    rw [isMap] at wf
    exact wf

def toValue (s : MapSource) : Value := s.source.toValue

theorem satisfies (s : MapSource) :
    ∀ pair ∈ s.source.pairs, pair.2.Satisfies KeyedMap.WellFormed :=
  KeyedMap.closed_wellFormed.satisfies_of_holds s.wellFormed

end MapSource

namespace ValueMap

def update (m : ValueMap) (s : MapSource) : ValueMap where
  map := m.map.update s.source.pairs
  wellFormed := KeyedMap.closed_wellFormed.update m.wellFormed s.satisfies

def deepUpdate (m : ValueMap) (s : MapSource) : ValueMap where
  map := m.map.deepUpdate s.source.pairs
  wellFormed := KeyedMap.closed_wellFormed.deepUpdate m.wellFormed s.satisfies

end ValueMap

end StyleValues
