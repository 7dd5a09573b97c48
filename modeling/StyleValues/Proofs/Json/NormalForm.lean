import StyleValues.Json.Basic
import StyleValues.Proofs.Number.Whole
import StyleValues.Proofs.Table

/-! JSON with every number in the form in which doubles are written. -/

namespace StyleValues

namespace Json

@[induction_eliminator]
theorem ind {motive : Json → Prop} (null : motive .null) (bool : ∀ b, motive (.bool b))
    (number : ∀ n, motive (.number n)) (string : ∀ text, motive (.string text))
    (array : ∀ items, (∀ j ∈ items, motive j) → motive (.array items))
    (object : ∀ fields : Table Json, (∀ field ∈ fields.entries, motive field.2) →
      motive (.object fields)) (j : Json) : motive j :=
  Json.rec (motive_2 := fun items => ∀ j ∈ items, motive j)
    (motive_3 := fun fields => ∀ field ∈ fields.entries, motive field.2)
    (motive_4 := fun fields => ∀ field ∈ fields, motive field.2)
    (motive_5 := fun field => motive field.2)
    null bool number string array object nofun
    (fun _ _ first rest => List.forall_mem_cons.mpr ⟨first, rest⟩) (fun _ all => all) nofun
    (fun _ _ first rest => List.forall_mem_cons.mpr ⟨first, rest⟩) (fun _ _ value => value) j

mutual

/-- Each number goes through a double. All else stays. -/
def normalized : Json → Json
  | .number n => .ofFloat n.toFloat
  | .array items => .array (normalizedItems items)
  | .object fields => .object (normalizedTable fields)
  | j => j
termination_by structural j => j

def normalizedItems : List Json → List Json
  | [] => []
  | j :: rest => j.normalized :: normalizedItems rest
termination_by structural js => js

def normalizedTable : Table Json → Table Json
  | ⟨fields⟩ => ⟨normalizedFields fields⟩
termination_by structural t => t

def normalizedFields : List (String × Json) → List (String × Json)
  | [] => []
  | (key, j) :: rest => (key, j.normalized) :: normalizedFields rest
termination_by structural fs => fs

end

theorem normalizedItems_eq_map (items : List Json) :
    normalizedItems items = items.map normalized := by
  induction items with
  | nil => rfl
  | cons j rest ih => rw [normalizedItems, ih, List.map_cons]

theorem normalizedTable_eq_mapped (fields : Table Json) :
    normalizedTable fields = fields.mapped normalized := by
  obtain ⟨fields⟩ := fields
  unfold normalizedTable Table.mapped
  congr 1
  induction fields with
  | nil => rfl
  | cons field rest ih => rw [normalizedFields, ih, List.map_cons]

inductive DistinctKeys : Json → Prop
  | null : DistinctKeys .null
  | bool (b : Bool) : DistinctKeys (.bool b)
  | number (n : JsonNumber) : DistinctKeys (.number n)
  | string (text : String) : DistinctKeys (.string text)
  | array {items : List Json} (inner : ∀ j ∈ items, DistinctKeys j) : DistinctKeys (.array items)
  | object {fields : Table Json} (distinct : fields.Distinct)
      (inner : ∀ field ∈ fields.entries, DistinctKeys field.2) : DistinctKeys (.object fields)

theorem normalized_ofFloat (x : Float) : (ofFloat x).normalized = ofFloat x := by
  rw [ofFloat]
  split
  · rename_i n whole
    split
    · rename_i small
      change ofFloat (Number.ofInt n) = _
      rw [ofFloat, Number.whole?_ofInt small]
      exact congrArg Json.number (if_pos small)
    · rename_i large
      change ofFloat x = _
      rw [ofFloat, whole]
      exact congrArg Json.number (if_neg large)
  · rename_i notWhole
    split
    · rename_i finite
      change ofFloat x = _
      rw [ofFloat, notWhole]
      exact if_pos finite
    · rfl

theorem normalized_normalized (j : Json) : j.normalized.normalized = j.normalized := by
  induction j with
  | number n => exact normalized_ofFloat n.toFloat
  | array items ih =>
    rw [normalized, normalized, normalizedItems_eq_map, normalizedItems_eq_map, List.map_map]
    exact congrArg Json.array (List.map_congr_left ih)
  | object fields ih =>
    rw [normalized, normalized, normalizedTable_eq_mapped, normalizedTable_eq_mapped,
      Table.mapped_mapped]
    exact congrArg Json.object (Table.mapped_congr ih)
  | _ => rfl

end Json

end StyleValues
