import StyleValues.Command.Basic
import StyleValues.Proofs.Host.Routes
import StyleValues.Proofs.Json.ReadBack
import StyleValues.Proofs.Units.Plain

/-! JSON through host values and values, and back. -/

namespace StyleValues

namespace Host

theorem ofItems_eq_map (items : List Json) : ofItems items = items.map ofJson := by
  induction items with
  | nil => rfl
  | cons j rest ih => rw [ofItems, ih, List.map_cons]

theorem ofTable_eq_mapped (fields : Table Json) : ofTable fields = fields.mapped ofJson := by
  obtain ⟨fields⟩ := fields
  unfold ofTable Table.mapped
  congr 1
  induction fields with
  | nil => rfl
  | cons field rest ih => rw [ofFields, ih, List.map_cons]

theorem toJson_ofJson (j : Json) : (ofJson j).toJson = .ok j.normalized := by
  induction j with
  | array items ih =>
    rw [ofJson, toJson, ofItems_eq_map, jsonItems_map ih, Json.normalized,
      Json.normalizedItems_eq_map]
    rfl
  | object fields ih =>
    rw [ofJson, toJson, ofTable_eq_mapped, jsonTable_mapped ih, Json.normalized,
      Json.normalizedTable_eq_mapped]
    rfl
  | _ => rfl

end Host

namespace Json

mutual

def toValue : Json → Value
  | .null => .null
  | .bool b => .bool b
  | .number n => .unitless n.toFloat
  | .string text => .string text
  | .array items => .list (valueItems items) .comma
  | .object fields => .map (valueTable fields)
termination_by structural j => j

def valueItems : List Json → List Value
  | [] => []
  | j :: rest => j.toValue :: valueItems rest
termination_by structural js => js

def valueTable : Table Json → List (Value × Value)
  | ⟨fields⟩ => valueFields fields
termination_by structural t => t

def valueFields : List (String × Json) → List (Value × Value)
  | [] => []
  | (key, j) :: rest => (.string key, j.toValue) :: valueFields rest
termination_by structural fs => fs

end

theorem valueItems_eq_map (items : List Json) : valueItems items = items.map toValue := by
  induction items with
  | nil => rfl
  | cons j rest ih => rw [valueItems, ih, List.map_cons]

theorem valueTable_eq_map (fields : Table Json) :
    valueTable fields = fields.entries.map fun field => (.string field.1, field.2.toValue) := by
  obtain ⟨fields⟩ := fields
  unfold valueTable
  induction fields with
  | nil => rfl
  | cons field rest ih => rw [valueFields, ih, List.map_cons]

end Json

theorem Host.toValue_ofJson (j : Json) : (ofJson j).toValue = .ok j.toValue := by
  induction j with
  | array items ih =>
    rw [ofJson, toValue, ofItems_eq_map, toItems_map ih, Json.toValue, Json.valueItems_eq_map]
    rfl
  | object fields ih =>
    rw [ofJson, toValue, ofTable_eq_mapped, toFields_mapped ih, Json.toValue,
      Json.valueTable_eq_map]
    rfl
  | _ => rfl

namespace Json

theorem toJson_unitless (x : Float) : (Value.unitless x).toJson = ofFloat x := by
  have units : (Dimension.ofNumber x "").units = .none := by
    change (Units.parse "").normalized = _
    rw [Units.parse_of_plain (by decide), Units.normalized_single]
    rfl
  rw [Value.unitless, Value.toJson, Dimension.toJson, Dimension.isUnitless, units]
  rfl

theorem keysApart_toValue {j : Json} (distinct : j.DistinctKeys) : j.toValue.KeysApart := by
  induction distinct with
  | array inner ih =>
    rw [toValue, Value.keysApart_list, valueItems_eq_map, List.forall_mem_map]
    exact ih
  | object distinct inner ih =>
    rw [toValue, Value.keysApart_map, valueTable_eq_map, Value.keyFingerprints, List.map_map,
      List.forall_mem_map]
    exact ⟨distinct.nodup_fingerprints, ih⟩
  | _ => exact Value.keysApart_of_leaf rfl

theorem toJson_toValue {j : Json} (distinct : j.DistinctKeys) :
    j.toValue.toJson = j.normalized := by
  induction distinct with
  | array inner ih =>
    rw [toValue, Value.toJson, valueItems_eq_map, Value.jsonItems_eq_map, normalized,
      normalizedItems_eq_map, List.map_map]
    exact congrArg Json.array (List.map_congr_left ih)
  | @object fields distinct inner ih =>
    have texts : fields.mapped (fun j => j.toValue.toJson) = fields.mapped normalized :=
      Table.mapped_congr ih
    have apart := Value.keysApart_map.mp (keysApart_toValue (.object distinct inner))
    rw [toValue, Value.toJson_map apart.1, valueTable_eq_map, Value.jsonFields, List.map_map,
      Table.ofList_of_nodup, normalized, normalizedTable_eq_mapped, ← texts]
    · rfl
    · rw [List.map_map]
      exact distinct
  | number n => exact toJson_unitless n.toFloat
  | _ => rfl

theorem toJson_toObjectHost {j : Json} (distinct : j.DistinctKeys) :
    j.toValue.toObjectHost.toJson = .ok j.normalized := by
  rw [Value.toJson_toObjectHost (keysApart_toValue distinct), toJson_toValue distinct]

theorem roundtripText_eq {text : String} {j : Json} (read : parse? text = some j) :
    roundtripText text = .ok (j.normalized.pretty 0) := by
  have value : castJson text = .ok j.toValue := by
    rw [castJson, readJson, read]
    change Except.mapError _ (Host.ofJson j).toValue = _
    rw [Host.toValue_ofJson]
    rfl
  rw [roundtripText, value]
  change (do let back ← Except.mapError _ j.toValue.toObjectHost.toJson; pure (back.pretty 0)) = _
  rw [toJson_toObjectHost (readable_of_parse? read).distinctKeys]
  rfl

/-- JSON survives: written from the host value, from what its value is cast back to, and by the
command, it is the JSON value with its numbers in normal form, which stays as it is. What the
command prints is read as this value again, if that is so of the doubles among its numbers. -/
theorem toJson_roundTrip {j : Json} (distinct : j.DistinctKeys) :
    ∃ v, (Host.ofJson j).toValue = .ok v ∧
      (Host.ofJson j).toJson = .ok j.normalized ∧
      v.toHost.toJson = .ok j.normalized ∧
      (v.toHostWith fun entries => .object (Value.objectOf entries)).toJson = .ok j.normalized ∧
      (∀ text, parse? text = some j → ∃ printed, roundtripText text = .ok printed ∧
        printed = j.normalized.pretty 0 ∧
        ((j.normalized.EachNumber fun n => (∃ k, n = .integer k) ∨ n.Kept) →
          parse? printed = some j.normalized)) ∧
      j.normalized.normalized = j.normalized := by
  refine ⟨j.toValue, Host.toValue_ofJson j, Host.toJson_ofJson j, ?_, ?_, ?_, ?_⟩
  · rw [Value.toJson_toHost, toJson_toValue distinct]
  · rw [← Value.toObjectHost_eq_toHostWith, toJson_toObjectHost distinct]
  · refine fun text read => ⟨_, roundtripText_eq read, rfl, fun kept => ?_⟩
    exact parse?_pretty (readable_of_parse? read).normalized (eachNumber_kept_normalized kept)
  · exact normalized_normalized j

def sample : Json :=
  .object ⟨[("width", .string "10px"),
    ("sizes", .array [.number (.float 2), .number (.float 0.5), .object .empty, .array []])]⟩

def samplePrinted : String :=
  "\x7b\n  \"width\": \"10px\",\n  \"sizes\": [\n    2,\n    0.5,\n    \x7b\x7d,\n    []\n  ]\n\x7d"

theorem toJson_roundTrip_sample :
    sample.DistinctKeys ∧
      (Host.ofJson sample).toJson = .ok (.object ⟨[("width", .string "10px"), ("sizes",
        .array [.number (.integer 2), .number (.float 0.5), .object .empty, .array []])]⟩) ∧
      (∃ v, (Host.ofJson sample).toValue = .ok v ∧
        v.toHost.toJson = (Host.ofJson sample).toJson) ∧
      parse? (sample.pretty 0) = some sample ∧
      roundtripText (sample.pretty 0) = .ok samplePrinted ∧
      parse? samplePrinted = some sample.normalized := by
  have readable : Readable depthLimit sample := by
    have keys : ["width", "sizes"].Nodup := by decide
    refine .object keys (List.forall_mem_cons.mpr ⟨.string _ _, ?_⟩)
    refine List.forall_mem_singleton.mpr (.array ?_)
    refine List.forall_mem_cons.mpr ⟨.number _ _, List.forall_mem_cons.mpr ⟨.number _ _, ?_⟩⟩
    refine List.forall_mem_cons.mpr ⟨.object List.nodup_nil nofun, ?_⟩
    exact List.forall_mem_singleton.mpr (.array nofun)
  have half : (JsonNumber.float 0.5).Kept := by decide +kernel
  have numbers {P : JsonNumber → Prop} {n : JsonNumber} (first : P n) (second : P (.float 0.5)) :
      (object ⟨[("width", .string "10px"), ("sizes",
        .array [.number n, .number (.float 0.5), .object .empty, .array []])]⟩).EachNumber P := by
    refine .object (List.forall_mem_cons.mpr ⟨.string _, ?_⟩)
    refine List.forall_mem_singleton.mpr (.array ?_)
    refine List.forall_mem_cons.mpr ⟨.number first, List.forall_mem_cons.mpr ⟨.number second, ?_⟩⟩
    exact List.forall_mem_cons.mpr
      ⟨.object nofun, List.forall_mem_singleton.mpr (.array nofun)⟩
  have normal : sample.normalized = .object ⟨[("width", .string "10px"), ("sizes",
      .array [.number (.integer 2), .number (.float 0.5), .object .empty, .array []])]⟩ := rfl
  have read : parse? (sample.pretty 0) = some sample :=
    parse?_pretty readable (numbers (by decide +kernel) half)
  obtain ⟨v, cast, written, back, -, command, -⟩ := toJson_roundTrip readable.distinctKeys
  obtain ⟨printed, done, text, readAgain⟩ := command _ read
  have same : sample.normalized.pretty 0 = samplePrinted := by decide +kernel
  rw [text.trans same] at done readAgain
  refine ⟨readable.distinctKeys, written.trans (congrArg _ normal),
    ⟨v, cast, back.trans written.symm⟩, read, done, readAgain ?_⟩
  rw [normal]
  exact numbers (.inl ⟨2, rfl⟩) (.inr half)

end Json

end StyleValues
