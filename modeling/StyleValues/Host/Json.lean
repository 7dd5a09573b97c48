import StyleValues.Host.Cast
import StyleValues.Json.Basic

/-! Host values made from JSON, and JSON made from any kind of value. -/

namespace StyleValues

namespace Host

mutual

/-- Lists from JSON leave their separator open. -/
def ofJson : Json → Host
  | .null => .null
  | .bool b => .bool b
  | .number n => .number n.toFloat
  | .string text => .string text
  | .array items => .list (ofItems items) none
  | .object fields => .object (ofTable fields)
termination_by structural j => j

def ofItems : List Json → List Host
  | [] => []
  | j :: rest => ofJson j :: ofItems rest
termination_by structural js => js

def ofTable : Table Json → Table Host
  | ⟨fields⟩ => ⟨ofFields fields⟩
termination_by structural t => t

def ofFields : List (String × Json) → List (String × Host)
  | [] => []
  | (key, j) :: rest => (key, ofJson j) :: ofFields rest
termination_by structural fs => fs

end

end Host

def Dimension.toJson (d : Dimension) : Json :=
  if d.isUnitless then .ofFloat d.value else .string d.text

/-- An object from entries with a fingerprint and a text for each key. Entries of one fingerprint
are one entry, and what then still has one text is one field. -/
def Json.ofKeyed (entries : List (String × String × Json)) : Json :=
  .object (.ofList (Table.ofList entries).values)

namespace Value

mutual

/-- Colors and errors are their texts. -/
def toJson : Value → Json
  | .string text => .string text
  | .number x unit => (Dimension.ofNumber x unit).toJson
  | .bool b => .bool b
  | .null => .null
  | .color c => .string c.text
  | .list items _ => .array (jsonItems items)
  | .map entries => .ofKeyed (jsonEntries entries)
  | .error text => .string (Value.error text).text
termination_by structural v => v

def jsonItems : List Value → List Json
  | [] => []
  | v :: rest => v.toJson :: jsonItems rest
termination_by structural vs => vs

def jsonEntries : List (Value × Value) → List (String × String × Json)
  | [] => []
  | (key, v) :: rest => (key.fingerprint, key.keyText, v.toJson) :: jsonEntries rest
termination_by structural es => es

end

theorem jsonItems_eq_map (items : List Value) : jsonItems items = items.map toJson := by
  induction items with
  | nil => rfl
  | cons v rest ih => rw [jsonItems, ih, List.map_cons]

theorem jsonEntries_eq_map (entries : List (Value × Value)) :
    jsonEntries entries =
      entries.map fun entry => (entry.1.fingerprint, entry.1.keyText, entry.2.toJson) := by
  induction entries with
  | nil => rfl
  | cons entry rest ih => rw [jsonEntries, ih, List.map_cons]

end Value

namespace Stored

mutual

def toJson : Stored → Json
  | .tagged v => v.toJson
  | .nested m => .object (.ofList (jsonTable m))
termination_by structural s => s

def jsonTable : Table (Value × Stored) → List (String × Json)
  | ⟨entries⟩ => jsonFields entries
termination_by structural m => m

def jsonFields : List (String × Value × Stored) → List (String × Json)
  | [] => []
  | (_, key, s) :: rest => (key.keyText, s.toJson) :: jsonFields rest
termination_by structural es => es

end

theorem jsonTable_eq_map (m : KeyedMap) :
    jsonTable m = m.pairs.map fun pair => (pair.1.keyText, pair.2.toJson) := by
  obtain ⟨entries⟩ := m
  rw [jsonTable, KeyedMap.pairs, Table.values]
  induction entries with
  | nil => rfl
  | cons entry rest ih => rw [jsonFields, ih, List.map_cons, List.map_cons]

end Stored

theorem Value.toJson_ofEntries (entries : List (Value × Value)) :
    (Stored.nested (KeyedMap.ofEntries entries)).toJson = (Value.map entries).toJson := by
  rw [Stored.toJson, Stored.jsonTable_eq_map, Value.toJson, Json.ofKeyed, Value.jsonEntries_eq_map,
    KeyedMap.pairs, ← Table.values_mapped, KeyedMap.ofEntries_eq_ofList, Table.mapped_ofList,
    List.map_map]
  rfl

namespace Host

mutual

/-- The first handle, or custom value that stands for no value, decides the error. -/
def toJson : Host → Except CastError Json
  | .null => pure .null
  | .bool b => pure (.bool b)
  | .number x => pure (.ofFloat x)
  | .string text => pure (.string text)
  | .list items _ => return .array (← jsonItems items)
  | .object fields => return .object (← jsonTable fields)
  | .dimension d => pure d.toJson
  | .map m => pure (Stored.nested m).toJson
  | .tagged v => pure v.toJson
  | .custom c => return (← c.outcome).toJson
  | .handle description => throw (.unsupported description)
termination_by structural h => h

def jsonItems : List Host → Except CastError (List Json)
  | [] => pure []
  | h :: rest => do
      let j ← h.toJson
      let js ← jsonItems rest
      pure (j :: js)
termination_by structural hs => hs

def jsonTable : Table Host → Except CastError (Table Json)
  | ⟨fields⟩ => return ⟨← jsonFields fields⟩
termination_by structural t => t

def jsonFields : List (String × Host) → Except CastError (List (String × Json))
  | [] => pure []
  | (key, h) :: rest => do
      let j ← h.toJson
      let fields ← jsonFields rest
      pure ((key, j) :: fields)
termination_by structural fs => fs

end

section

variable {f : α → Host} {g : α → Json}

theorem jsonItems_map {items : List α} (each : ∀ a ∈ items, (f a).toJson = .ok (g a)) :
    jsonItems (items.map f) = .ok (items.map g) := by
  induction items with
  | nil => rfl
  | cons a rest ih =>
    obtain ⟨first, others⟩ := List.forall_mem_cons.mp each
    rw [List.map_cons, jsonItems, first, ih others]
    rfl

theorem jsonTable_mapped {fields : Table α}
    (each : ∀ field ∈ fields.entries, (f field.2).toJson = .ok (g field.2)) :
    jsonTable (fields.mapped f) = .ok (fields.mapped g) := by
  obtain ⟨fields⟩ := fields
  unfold Table.mapped jsonTable
  suffices jsonFields (fields.map fun field => (field.1, f field.2)) =
      .ok (fields.map fun field => (field.1, g field.2)) by
    rw [this]
    rfl
  induction fields with
  | nil => rfl
  | cons field rest ih =>
    obtain ⟨first, others⟩ := List.forall_mem_cons.mp each
    rw [List.map_cons, jsonFields, first, ih others]
    rfl

end

end Host

/-- To cast a value loses nothing of what is written of it. -/
theorem Value.toJson_toHost (v : Value) : v.toHost.toJson = .ok v.toJson := by
  induction v with
  | list items separator ih =>
    rw [toHost, Host.toJson, toHosts_eq_map, Host.jsonItems_map ih, toJson, jsonItems_eq_map]
    rfl
  | map entries =>
    rw [toHost, Host.toJson, toJson_ofEntries]
    rfl
  | _ => rfl

theorem Stored.toJson_toHost (s : Stored) : s.toHost.toJson = .ok s.toJson := by
  cases s with
  | tagged v => exact v.toJson_toHost
  | nested m => rfl

namespace Host

/-- A tagged color or error is written as its text, any other value as what it is cast to. -/
theorem toJson_tagged (v : Value) :
    (tagged v).toJson =
      match v with
      | .color c => .ok (.string (Value.color c).text)
      | .error text => .ok (.string (Value.error text).text)
      | v => v.toHost.toJson := by
  cases v with
  | color c => rfl
  | error text => rfl
  | _ => exact (Value.toJson_toHost _).symm

/-- A keyed map is written as an object into which its entries go in order, each under the text of
its key and written as what it is cast to. -/
theorem toJson_map (m : KeyedMap) :
    (map m).toJson = Json.object <$> m.pairs.foldlM (fun fields pair => do
      let j ← pair.2.toHost.toJson
      pure (Table.insert fields pair.1.keyText j)) Table.empty := by
  have each : (fun fields (pair : Value × Stored) => do
      let j ← pair.2.toHost.toJson
      pure (Table.insert fields pair.1.keyText j)) = fun fields pair =>
        (pure (fields.insert pair.1.keyText pair.2.toJson) : Except CastError _) := by
    funext fields pair
    rw [pair.2.toJson_toHost]
    rfl
  rw [each, List.foldlM_pure, toJson, Stored.toJson, Stored.jsonTable_eq_map, Table.ofList,
    Table.insertAll, List.foldl_map]
  rfl

end Host

end StyleValues
