import StyleValues.KeyedMap.Merge

/-! What a merge takes in, what it stores under one key, and the calls it makes to its resolver. -/

namespace StyleValues

/-- What has entries to merge: a keyed map, a map value, or anything that a keyed map holds. -/
inductive Source
  | keyedMap (m : KeyedMap)
  | mapValue (entries : List (Value × Value))
  | stored (s : Stored)

namespace Source

def pairs : Source → List (Value × Stored)
  | .keyedMap m => m.pairs
  | .mapValue entries => KeyedMap.tagEntries entries
  | .stored s => s.pairs?.getD []

def toValue : Source → Value
  | .keyedMap m => m.toValue
  | .mapValue entries => .map entries
  | .stored s => s.toValue

/-- Whether the source is this keyed map, as it is or held. -/
def Holds (m : KeyedMap) : Source → Prop
  | .keyedMap n => n = m
  | .mapValue _ => False
  | .stored s => s = .nested m

end Source

structure Call where
  key : Value
  new : Stored
  old : Stored
  answer : Stored

/-- Keeps the calls beside the memory of a resolver. -/
def Resolver.recorded (resolve : Resolver (StateM σ)) : Resolver (StateM (σ × List Call)) :=
  fun key new old state =>
    let (answer, memory) := (resolve key new old).run state.1
    (answer, memory, state.2 ++ [⟨key, new, old, answer⟩])

namespace KeyedMap

section Unfolding

variable {M : Type → Type} [Monad M]

def mergedValue (resolve : Resolver M) (m : KeyedMap) (key : Value) (new : Stored) : M Stored :=
  match m.find? key with
  | none => pure new
  | some old =>
      match old.keyedMap?, new.pairs? with
      | some held, some pairs => .nested <$> held.mergeDeep resolve pairs
      | _, _ => resolve key new old

theorem mergedValue_of_absent (resolve : Resolver M) {m : KeyedMap} {key : Value}
    (absent : m.find? key = none) (new : Stored) : m.mergedValue resolve key new = pure new := by
  rw [mergedValue, absent]

theorem mergedValue_of_maps (resolve : Resolver M) {m held : KeyedMap} {key : Value}
    {old new : Stored} {pairs : List (Value × Stored)} (stored : m.find? key = some old)
    (isMap : old.keyedMap? = some held) (comesIn : new.pairs? = some pairs) :
    m.mergedValue resolve key new = .nested <$> held.mergeDeep resolve pairs := by
  rw [mergedValue, stored]
  dsimp only
  rw [isMap, comesIn]

theorem mergedValue_of_conflict (resolve : Resolver M) {m : KeyedMap} {key : Value}
    {old new : Stored} (stored : m.find? key = some old)
    (conflict : old.keyedMap? = none ∨ new.pairs? = none) :
    m.mergedValue resolve key new = resolve key new old := by
  rw [mergedValue, stored]
  dsimp only
  rcases conflict with scalar | scalar
  · rw [scalar]
  · rw [scalar]
    cases old.keyedMap? <;> rfl

theorem mergeDeep_nil (resolve : Resolver M) (m : KeyedMap) :
    m.mergeDeep resolve [] = pure m := by
  rw [mergeDeep]

theorem mergeDeep_cons (resolve : Resolver M) (m : KeyedMap) (key : Value) (new : Stored)
    (rest : List (Value × Stored)) :
    m.mergeDeep resolve ((key, new) :: rest) =
      m.mergedValue resolve key new >>= fun value => (m.set key value).mergeDeep resolve rest := by
  rw [mergeDeep, mergedValue]
  congr 1
  cases m.find? key with
  | none => rfl
  | some old =>
    dsimp only
    cases old.keyedMap? <;> cases new.pairs? <;> rfl

end Unfolding

theorem update_cons (m : KeyedMap) (key : Value) (new : Stored) (rest : List (Value × Stored)) :
    m.update ((key, new) :: rest) = (m.set key new).update rest := by
  unfold update
  rw [mergeFlat]
  cases m.find? key <;> rfl

def updatedValue (m : KeyedMap) (key : Value) (new : Stored) : Stored :=
  match (m.find? key).bind Stored.keyedMap?, new.pairs? with
  | some held, some pairs => .nested (held.deepUpdate pairs)
  | _, _ => new

theorem updatedValue_of_maps {m held : KeyedMap} {key : Value} {new : Stored}
    {pairs : List (Value × Stored)} (stored : (m.find? key).bind Stored.keyedMap? = some held)
    (comesIn : new.pairs? = some pairs) :
    m.updatedValue key new = .nested (held.deepUpdate pairs) := by
  rw [updatedValue, stored, comesIn]

theorem updatedValue_of_conflict {m : KeyedMap} {key : Value} {new : Stored}
    (conflict : (m.find? key).bind Stored.keyedMap? = none ∨ new.pairs? = none) :
    m.updatedValue key new = new := by
  unfold updatedValue
  rcases conflict with scalar | scalar
  · rw [scalar]
  · rw [scalar]
    cases (m.find? key).bind Stored.keyedMap? <;> rfl

theorem updatedValue_cases (m : KeyedMap) (key : Value) (new : Stored) :
    (((m.find? key).bind Stored.keyedMap? = none ∨ new.pairs? = none) ∧
      m.updatedValue key new = new) ∨
    ∃ old held pairs, m.find? key = some old ∧ old.keyedMap? = some held ∧
      new.pairs? = some pairs ∧ m.updatedValue key new = .nested (held.deepUpdate pairs) := by
  by_cases conflict : (m.find? key).bind Stored.keyedMap? = none ∨ new.pairs? = none
  · exact .inl ⟨conflict, updatedValue_of_conflict conflict⟩
  · simp only [not_or, Option.ne_none_iff_exists'] at conflict
    obtain ⟨⟨held, stored⟩, pairs, comesIn⟩ := conflict
    obtain ⟨old, found, isMap⟩ := Option.bind_eq_some_iff.mp stored
    exact .inr ⟨old, held, pairs, found, isMap, comesIn, updatedValue_of_maps stored comesIn⟩

theorem mergedValue_keepNew (m : KeyedMap) (key : Value) (new : Stored) :
    m.mergedValue keepNew key new = m.updatedValue key new := by
  unfold mergedValue updatedValue
  cases m.find? key with
  | none => rfl
  | some old =>
    dsimp only [Option.bind_some]
    cases old.keyedMap? <;> cases new.pairs? <;> rfl

theorem deepUpdate_nil (m : KeyedMap) : m.deepUpdate [] = m :=
  mergeDeep_nil keepNew m

theorem deepUpdate_cons (m : KeyedMap) (key : Value) (new : Stored)
    (rest : List (Value × Stored)) :
    m.deepUpdate ((key, new) :: rest) = (m.set key (m.updatedValue key new)).deepUpdate rest := by
  unfold deepUpdate
  rw [mergeDeep_cons, mergedValue_keepNew]
  rfl

end KeyedMap

end StyleValues
