import StyleValues.Host.Basic

/-! Host values cast to tagged values and back. -/

namespace StyleValues

namespace Host

mutual

/-- A list without separator gets commas, an object becomes a map with string keys. The first part
that stands for no value decides the error. -/
def toValue : Host → Except CastError Value
  | .null => pure .null
  | .bool b => pure (.bool b)
  | .number x => pure (.unitless x)
  | .string text => pure (.string text)
  | .list items separator => return .list (← toItems items) (separator.getD .comma)
  | .object fields => return .map (← toFields fields)
  | .dimension d => d.toValue.mapError .units
  | .map m => pure m.toValue
  | .tagged v => pure v
  | .custom c => c.outcome
  | .handle description => throw (.unsupported description)
termination_by structural h => h

def toItems : List Host → Except CastError (List Value)
  | [] => pure []
  | h :: rest => do
      let v ← h.toValue
      let vs ← toItems rest
      pure (v :: vs)
termination_by structural hs => hs

def toFields : Table Host → Except CastError (List (Value × Value))
  | ⟨fields⟩ => toEntries fields
termination_by structural t => t

def toEntries : List (String × Host) → Except CastError (List (Value × Value))
  | [] => pure []
  | (key, h) :: rest => do
      let v ← h.toValue
      let entries ← toEntries rest
      pure ((.string key, v) :: entries)
termination_by structural fs => fs

end

end Host

namespace Value

mutual

/-- Numbers become dimensions and maps become keyed maps, also as items of lists. Colors and errors
stay tagged. -/
def toHost : Value → Host
  | .string text => .string text
  | .number x unit => .dimension (.ofNumber x unit)
  | .bool b => .bool b
  | .null => .null
  | .color c => .tagged (.color c)
  | .list items separator => .list (toHosts items) (some separator)
  | .map entries => .map (.ofEntries entries)
  | .error text => .tagged (.error text)
termination_by structural v => v

def toHosts : List Value → List Host
  | [] => []
  | v :: rest => v.toHost :: toHosts rest
termination_by structural vs => vs

end

theorem toHosts_eq_map (items : List Value) : toHosts items = items.map toHost := by
  induction items with
  | nil => rfl
  | cons v rest ih => simp [toHosts, ih]

def keyText (key : Value) : String :=
  key.text?.getD key.text

/-- As `toHost`, with another form for a map. Maps in lists keep their form. -/
def toHostWith (mapForm : List (Value × Value) → Host) : Value → Host
  | .map entries => mapForm entries
  | v => v.toHost

mutual

/-- Maps become objects, as far as they are reached through maps only. -/
def toObjectHost : Value → Host
  | .map entries => .object (.ofList (objectFields entries))
  | v => v.toHost
termination_by structural v => v

def objectFields : List (Value × Value) → List (String × Host)
  | [] => []
  | (key, v) :: rest => (key.keyText, v.toObjectHost) :: objectFields rest
termination_by structural es => es

end

def objectOf (entries : List (Value × Value)) : Table Host :=
  .ofList (objectFields entries)

theorem toObjectHost_eq_toHostWith (v : Value) :
    v.toObjectHost = v.toHostWith fun entries => .object (objectOf entries) := by
  cases v <;> rfl

end Value

def Stored.toHost : Stored → Host
  | .tagged v => v.toHost
  | .nested m => .map m

end StyleValues
