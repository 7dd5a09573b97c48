import StyleValues.Host.Access
import StyleValues.Proofs.KeyedMap.Closed

/-! Runs of the operations that change a keyed map. In every state that a run reaches, and in every
keyed map inside one, entries stand under the fingerprints of their keys, no two of these are the
same, and all readers tell the same story. -/

namespace StyleValues

namespace KeyedMap

/-- One call of an operation that changes a keyed map. A resolver comes with a memory of its own,
which it may change from call to call. -/
inductive Step : Type 1
  | set (key : Value) (s : Stored)
  | trySet (key value : Host)
  | delete (key : Value)
  | clear
  | update (source : Source)
  | updateWith {σ : Type} (resolve : Resolver (StateM σ)) (memory : σ) (source : Source)
  | deepUpdate (source : Source)
  | deepUpdateWith {σ : Type} (resolve : Resolver (StateM σ)) (memory : σ) (source : Source)
  | castSet (key value : Host)
  | castDelete (key : Host)

namespace Step

def apply (m : KeyedMap) : Step → KeyedMap
  | .set key s => m.set key s
  | .trySet key value => ((Access.trySet key value).on m).2
  | .delete key => m.delete key
  | .clear => .empty
  | .update source => m.update source.pairs
  | .updateWith resolve memory source => ((m.mergeFlat resolve source.pairs).run memory).1
  | .deepUpdate source => m.deepUpdate source.pairs
  | .deepUpdateWith resolve memory source => ((m.mergeDeep resolve source.pairs).run memory).1
  | .castSet key value => ((Access.set key value).on m).2
  | .castDelete key => ((Access.delete key).on m).2

/-- Whether this keyed map comes in to be stored or merged. One that comes in as a key, or as part
of what is cast, is only read in its value form. -/
def Brings (n : KeyedMap) : Step → Prop
  | .set _ s => s = .nested n
  | .trySet _ value => value = .map n
  | .update source | .updateWith _ _ source => source.Holds n
  | .deepUpdate source | .deepUpdateWith _ _ source => source.Holds n
  | .delete _ | .clear | .castSet .. | .castDelete _ => False

def calls (m : KeyedMap) : Step → List Call
  | .updateWith resolve memory source =>
      ((m.mergeFlat resolve.recorded source.pairs).run (memory, [])).2.2
  | .deepUpdateWith resolve memory source =>
      ((m.mergeDeep resolve.recorded source.pairs).run (memory, [])).2.2
  | _ => []

end Step

/-- The keyed maps that runs reach from an empty map or from a map value, where each keyed map that
comes in or that a resolver answers with is reached by such a run itself. -/
inductive Built : KeyedMap → Prop
  | empty : Built .empty
  | ofEntries (entries : List (Value × Value)) : Built (.ofEntries entries)
  | step {m : KeyedMap} (built : Built m) (step : Step)
      (brought : ∀ n, step.Brings n → Built n)
      (answered : ∀ call ∈ step.calls m, ∀ n, call.answer = .nested n → Built n) :
      Built (step.apply m)

inductive Within (n : KeyedMap) : KeyedMap → Prop
  | itself : Within n n
  | nested {m inner : KeyedMap} {key : Value} (member : (key, .nested inner) ∈ m.pairs)
      (within : Within n inner) : Within n m

/-- The entries and the readers of a keyed map tell the same story. -/
structure Coherent (m : KeyedMap) : Prop where
  keyed : ∀ entry ∈ m.entries, entry.1 = entry.2.1.fingerprint
  distinct : (m.pairs.map fun pair => pair.1.fingerprint).Nodup
  find?_eq_some_iff : ∀ key s,
    m.find? key = some s ↔ ∃ k, (k, s) ∈ m.pairs ∧ k.fingerprint = key.fingerprint
  has_iff : ∀ key, m.has key = true ↔ ∃ s, m.find? key = some s
  size_eq : m.size = m.pairs.length

theorem WellFormed.coherent {m : KeyedMap} (wf : m.WellFormed) : m.Coherent where
  keyed entry member := (((wellFormed_iff m).mp wf).2 entry member).1
  distinct := wf.nodup_fingerprints
  find?_eq_some_iff _ _ := wf.find?_eq_some_iff
  has_iff key := by rw [has_eq_isSome_find?, Option.isSome_iff_exists]
  size_eq := by simp [Table.size, pairs, Table.values]

/-- What a single set or delete keeps, every step keeps. -/
theorem Closed.apply {P : KeyedMap → Prop} (closed : Closed P) {m : KeyedMap} (h : P m)
    (step : Step) (brought : ∀ n, step.Brings n → P n)
    (answered : ∀ call ∈ step.calls m, call.answer.Satisfies P) : P (step.apply m) := by
  cases step with
  | set key s => exact closed.set h brought
  | trySet key value =>
    dsimp only [Step.apply]
    by_cases refused : key.stored? = none ∨ value.stored? = none
    · rw [Access.on_trySet_of_not_stored? m refused]
      exact h
    · simp only [not_or, Option.ne_none_iff_exists'] at refused
      obtain ⟨⟨k, isKey⟩, s, isValue⟩ := refused
      rw [Access.on_trySet_of_stored? m isKey isValue]
      refine closed.set h fun n same => brought n ?_
      unfold Host.stored? at isValue
      split at isValue <;> cases isValue <;> cases same
      rfl
  | delete key => exact closed.delete h
  | clear => exact closed.empty
  | update source => exact closed.update h (closed.satisfies_of_holds brought)
  | updateWith resolve memory source =>
    obtain ⟨more, same, holds⟩ := closed.traced_mergeFlat resolve m source.pairs memory []
    refine holds (fun call found => answered call ?_) h (closed.satisfies_of_holds brought)
    dsimp only [Step.calls]
    rw [same]
    exact found
  | deepUpdate source => exact closed.deepUpdate h (closed.satisfies_of_holds brought)
  | deepUpdateWith resolve memory source =>
    obtain ⟨more, same, holds⟩ := closed.traced_mergeDeep resolve m source.pairs memory []
    refine holds (fun call found => answered call ?_) h (closed.satisfies_of_holds brought)
    dsimp only [Step.calls]
    rw [same]
    exact found
  | castSet key value =>
    dsimp only [Step.apply]
    cases isKey : key.toValue with
    | error cause =>
      rw [Access.on_set_of_error m (.inl isKey)]
      exact h
    | ok k =>
      cases isValue : value.toValue with
      | error cause =>
        rw [Access.on_set_of_error m (.inr ⟨k, isKey, isValue⟩)]
        exact h
      | ok v =>
        rw [Access.on_set_of_ok m isKey isValue]
        exact closed.set h fun _ same => nomatch same
  | castDelete key =>
    dsimp only [Step.apply]
    cases isKey : key.toValue with
    | error cause =>
      rw [(Access.on_of_error m isKey).2.2]
      exact h
    | ok k =>
      rw [Access.on_delete_of_ok m isKey]
      exact closed.delete h

/-- What a single set or delete keeps holds in every state of every run. -/
theorem Built.of_closed {P : KeyedMap → Prop} (closed : Closed P) {m : KeyedMap}
    (built : Built m) : P m := by
  induction built with
  | empty => exact closed.empty
  | ofEntries entries => exact closed.ofEntries entries
  | step _ step _ _ h brought answered => exact closed.apply h step brought answered

/-- What runs reach, operations have left. -/
def Built.valueMap {m : KeyedMap} (built : Built m) : ValueMap :=
  ⟨m, built.of_closed closed_wellFormed⟩

theorem Built.set {m : KeyedMap} (built : Built m) (key : Value) {s : Stored}
    (held : s.Satisfies Built) : Built (m.set key s) :=
  built.step (.set key s) held fun _ found => absurd found List.not_mem_nil

theorem closed_within : Closed fun m => ∀ n, Within n m → Built n where
  empty := by
    intro n within
    cases within with
    | itself => exact Built.empty
    | nested member _ => exact absurd member List.not_mem_nil
  ofEntries := by
    intro entries n within
    cases within with
    | itself => exact Built.ofEntries entries
    | nested member _ =>
      exact (satisfies_of_mem_tagEntries (P := fun _ => False) _ (mem_ofPairs member) _ rfl).elim
  set := by
    intro m key s h held n within
    cases within with
    | itself => exact (h m .itself).set key fun n same => held n same n .itself
    | nested member within =>
      rcases mem_pairs_set member with same | member
      · cases same
        exact held _ rfl n within
      · exact h n (.nested member within)
  delete := by
    intro m key h n within
    cases within with
    | itself => exact (h m .itself).step (.delete key) nofun fun _ found => nomatch found
    | nested member within =>
      obtain ⟨fingerprint, member⟩ := mem_pairs.mp member
      exact h n (.nested (mem_pairs.mpr ⟨_, (List.mem_filter.mp member).1⟩) within)
  inner h member k within := h k (.nested member within)

theorem Built.within {m n : KeyedMap} (built : Built m) (within : Within n m) : Built n :=
  built.of_closed closed_within n within

/-- In every state of a run, every keyed map at any depth is coherent. -/
theorem coherent_of_built {m n : KeyedMap} (built : Built m) (within : Within n m) :
    n.Coherent :=
  (built.within within).valueMap.wellFormed.coherent

def countingKeepOld : Resolver (StateM Nat) :=
  fun _ _ old count => (old, count + 1)

def zeros : KeyedMap :=
  .ofEntries [(.number 0.0 "px", .null), (.number (-0.0) "px", .bool true)]

def heldZeros : KeyedMap :=
  KeyedMap.empty.set (.string "k") (.nested zeros)

def mergedZeros : Step :=
  .updateWith countingKeepOld 0 (.mapValue [(.string "k", .null)])

/-- A run whose resolver answers with the keyed map that it is asked about. -/
theorem coherent_of_built_zeros :
    Built (mergedZeros.apply heldZeros) ∧ Within zeros (mergedZeros.apply heldZeros) ∧
      zeros.Coherent := by
  have zeros_built : Built zeros := Built.ofEntries _
  have held : Built heldZeros :=
    Built.empty.set _ fun n same => Stored.nested.inj same ▸ zeros_built
  have calls : mergedZeros.calls heldZeros =
      [⟨.string "k", .tagged .null, .nested zeros, .nested zeros⟩] := rfl
  have built : Built (mergedZeros.apply heldZeros) := by
    apply held.step
    · exact fun n brought => brought.elim
    · intro call found n same
      rw [calls, List.mem_singleton] at found
      subst found
      exact Stored.nested.inj same ▸ zeros_built
  have pairs : (mergedZeros.apply heldZeros).pairs = [(.string "k", .nested zeros)] := rfl
  have within : Within zeros (mergedZeros.apply heldZeros) :=
    .nested (pairs ▸ List.mem_cons_self) .itself
  exact ⟨built, within, coherent_of_built built within⟩

end KeyedMap

end StyleValues
