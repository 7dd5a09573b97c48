import StyleValues.Host.Cast

/-! Keyed maps addressed by host values. Each access is a program on a keyed map, and one that fails
does not take back what it has done to the map. -/

namespace StyleValues

def Host.stored? : Host → Option Stored
  | .tagged v => some (.tagged v)
  | .map m => some (.nested m)
  | _ => none

abbrev Access := ExceptT CastError (StateM KeyedMap)

namespace Access

def on (program : Access α) (m : KeyedMap) : Except CastError α × KeyedMap :=
  StateT.run (ExceptT.run program) m

def cast (h : Host) : Access Value := ExceptT.mk (pure h.toValue)

def asStored (h : Host) : Access Stored :=
  match h.stored? with
  | some s => pure s
  | none => throw (.illegal h.text)

def get (key : Host) : Access (Option Host) := do
  let key ← cast key
  return ((← MonadState.get).find? key).map Stored.toHost

def has (key : Host) : Access Bool := do
  let key ← cast key
  return (← MonadState.get).has key

/-- The key is cast before the value. -/
def set (key value : Host) : Access Unit := do
  let key ← cast key
  let value ← cast value
  modify (·.set key (.tagged value))

def delete (key : Host) : Access Bool := do
  let key ← cast key
  modifyGet (·.remove key)

/-- Takes keys and values that are tagged, or keyed maps, as they are, and casts nothing. -/
def trySet (key value : Host) : Access Unit := do
  let key ← asStored key
  let value ← asStored value
  modify (·.set key.toValue value)

section

variable (m : KeyedMap) {key value : Host} {k v : Value} {s t : Stored} {cause : CastError}

theorem on_set_of_ok (isKey : key.toValue = .ok k) (isValue : value.toValue = .ok v) :
    (set key value).on m = (.ok (), m.set k (.tagged v)) := by
  unfold set cast
  rw [isKey, isValue]
  rfl

theorem on_delete_of_ok (isKey : key.toValue = .ok k) :
    (delete key).on m = (.ok (m.has k), m.delete k) := by
  unfold delete cast
  rw [isKey]
  rfl

theorem on_of_error (refused : key.toValue = .error cause) :
    (get key).on m = (.error cause, m) ∧ (has key).on m = (.error cause, m) ∧
      (delete key).on m = (.error cause, m) := by
  unfold get has delete cast
  rw [refused]
  exact ⟨rfl, rfl, rfl⟩

theorem on_set_of_error
    (refused : key.toValue = .error cause ∨
      ∃ k, key.toValue = .ok k ∧ value.toValue = .error cause) :
    (set key value).on m = (.error cause, m) := by
  unfold set cast
  rcases refused with refused | ⟨k, isKey, refused⟩
  · rw [refused]
    rfl
  · rw [isKey, refused]
    rfl

theorem on_trySet_of_stored? (isKey : key.stored? = some s) (isValue : value.stored? = some t) :
    (trySet key value).on m = (.ok (), m.set s.toValue t) := by
  unfold trySet asStored
  rw [isKey, isValue]
  rfl

theorem on_trySet_of_not_stored? (refused : key.stored? = none ∨ value.stored? = none) :
    (trySet key value).on m =
      (.error (.illegal (if key.stored? = none then key.text else value.text)), m) := by
  unfold trySet asStored
  cases isKey : key.stored? with
  | none => rfl
  | some s =>
    rw [refused.resolve_left (by simp [isKey])]
    rfl

end

end Access

end StyleValues
