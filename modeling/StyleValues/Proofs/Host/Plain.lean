import StyleValues.Proofs.Host.Parts
import StyleValues.Proofs.Units.Plain

/-! Host values without dimensions, keyed maps and the like, cast to values and back. -/

namespace StyleValues

namespace Host

/-- Built from nulls, bools, numbers, strings, lists and objects only, and no object has a key
twice. -/
inductive Plain : Host → Prop
  | null : Plain .null
  | bool (b : Bool) : Plain (.bool b)
  | number (x : Float) : Plain (.number x)
  | string (text : String) : Plain (.string text)
  | list {items : List Host} {separator : Option Separator} (inner : ∀ h ∈ items, Plain h) :
      Plain (.list items separator)
  | object {fields : Table Host} (distinct : fields.Distinct)
      (inner : ∀ field ∈ fields.entries, Plain field.2) : Plain (.object fields)

def castValue (h : Host) : Value :=
  match h.toValue with
  | .ok v => v
  | .error _ => .null

def keyedFields (fields : Table Host) : KeyedMap :=
  ⟨fields.entries.map fun field =>
    ((Value.string field.1).fingerprint, .string field.1, .tagged field.2.castValue)⟩

mutual

/-- Numbers become dimensions, open separators commas, and the topmost objects keyed maps. -/
def mapForm : Host → Host
  | .number x => .dimension (.unitless x)
  | .list items separator => .list (mapFormItems items) (some (separator.getD .comma))
  | .object fields => .map (keyedFields fields)
  | h => h
termination_by structural h => h

def mapFormItems : List Host → List Host
  | [] => []
  | h :: rest => h.mapForm :: mapFormItems rest
termination_by structural hs => hs

end

mutual

/-- As `mapForm`, but an object that no list is above of stays an object. -/
def objectForm : Host → Host
  | .object fields => .object (objectFormTable fields)
  | h => h.mapForm
termination_by structural h => h

def objectFormTable : Table Host → Table Host
  | ⟨fields⟩ => ⟨objectFormFields fields⟩
termination_by structural t => t

def objectFormFields : List (String × Host) → List (String × Host)
  | [] => []
  | (key, h) :: rest => (key, h.objectForm) :: objectFormFields rest
termination_by structural fs => fs

end

theorem mapFormItems_eq_map (items : List Host) : mapFormItems items = items.map mapForm := by
  induction items with
  | nil => rfl
  | cons h rest ih => rw [mapFormItems, ih, List.map_cons]

theorem objectFormTable_eq_mapped (fields : Table Host) :
    objectFormTable fields = fields.mapped objectForm := by
  obtain ⟨fields⟩ := fields
  unfold objectFormTable Table.mapped
  congr 1
  induction fields with
  | nil => rfl
  | cons field rest ih => rw [objectFormFields, ih, List.map_cons]

theorem castValue_eq {h : Host} {v : Value} (cast : h.toValue = .ok v) : h.castValue = v := by
  rw [castValue, cast]

theorem toValue_list {items : List Host} (each : ∀ h ∈ items, h.toValue = .ok h.castValue)
    (separator : Option Separator) : (Host.list items separator).toValue =
      .ok (.list (items.map castValue) (separator.getD .comma)) := by
  have cast : toItems items = .ok (items.map castValue) := by
    simpa using toItems_map (f := id) each
  rw [toValue, cast]
  rfl

theorem toValue_object {fields : Table Host}
    (each : ∀ field ∈ fields.entries, field.2.toValue = .ok field.2.castValue) :
    (Host.object fields).toValue =
      .ok (.map (fields.entries.map fun field => (.string field.1, field.2.castValue))) := by
  have cast : toFields fields =
      .ok (fields.entries.map fun field => (.string field.1, field.2.castValue)) := by
    simpa [Table.mapped] using toFields_mapped (f := id) each
  rw [toValue, cast]
  rfl

namespace Plain

theorem toValue_eq {h : Host} (plain : h.Plain) : h.toValue = .ok h.castValue := by
  induction plain with
  | list _ ih =>
    rw [castValue_eq (toValue_list ih _), toValue_list ih]
  | object _ _ ih =>
    rw [castValue_eq (toValue_object ih), toValue_object ih]
  | _ => rfl

theorem castValue_list {items : List Host} (inner : ∀ h ∈ items, h.Plain)
    (separator : Option Separator) : (Host.list items separator).castValue =
      .list (items.map castValue) (separator.getD .comma) :=
  castValue_eq (toValue_list (fun h member => (inner h member).toValue_eq) separator)

theorem castValue_object {fields : Table Host} (inner : ∀ field ∈ fields.entries, field.2.Plain) :
    (Host.object fields).castValue =
      .map (fields.entries.map fun field => (.string field.1, field.2.castValue)) :=
  castValue_eq (toValue_object fun field member => (inner field member).toValue_eq)

end Plain

theorem toHost_unitless (x : Float) : (Value.unitless x).toHost = .dimension (.unitless x) := by
  have units : Units.parse "" = .none := Units.parse_of_plain (by decide)
  rw [Value.unitless, Value.toHost, Dimension.ofNumber, units]
  rfl

theorem ofEntries_castValue {fields : Table Host} (distinct : fields.Distinct) :
    KeyedMap.ofEntries (fields.entries.map fun field => (.string field.1, field.2.castValue)) =
      keyedFields fields := by
  rw [KeyedMap.ofEntries_eq_ofList, List.map_map, Table.ofList_of_nodup]
  · rfl
  · rw [List.map_map]
    exact distinct.nodup_fingerprints

namespace Plain

theorem toHost_castValue {h : Host} (plain : h.Plain) : h.castValue.toHost = h.mapForm := by
  induction plain with
  | number x => exact toHost_unitless x
  | @list items separator inner ih =>
    rw [castValue_list inner, Value.toHost, Value.toHosts_eq_map, List.map_map, mapForm,
      mapFormItems_eq_map]
    exact congrArg (Host.list · _) (List.map_congr_left ih)
  | object distinct inner =>
    rw [castValue_object inner, Value.toHost, ofEntries_castValue distinct, mapForm]
  | _ => rfl

theorem toObjectHost_castValue {h : Host} (plain : h.Plain) :
    h.castValue.toObjectHost = h.objectForm := by
  induction plain with
  | number x => exact toHost_unitless x
  | @list items separator inner =>
    have plain : (Host.list items separator).Plain := .list inner
    have back := plain.toHost_castValue
    rw [castValue_list inner] at back ⊢
    exact back
  | @object fields distinct inner ih =>
    have forms : fields.mapped (fun h => h.castValue.toObjectHost) = fields.mapped objectForm :=
      Table.mapped_congr ih
    rw [castValue_object inner, Value.toObjectHost, Value.objectFields_eq_map, List.map_map,
      Table.ofList_of_nodup, objectForm, objectFormTable_eq_mapped, ← forms]
    · rfl
    · rw [List.map_map]
      exact distinct
  | _ => rfl

/-- A plain host value has a value. Cast back with objects for maps, and cast back without, it is in
the one form or the other. -/
theorem toHostWith_toValue {h : Host} (plain : h.Plain) :
    ∃ v, h.toValue = .ok v ∧
      (v.toHostWith fun entries => .object (Value.objectOf entries)) = h.objectForm ∧
      v.toHost = h.mapForm := by
  refine ⟨h.castValue, plain.toValue_eq, ?_, plain.toHost_castValue⟩
  rw [← Value.toObjectHost_eq_toHostWith]
  exact plain.toObjectHost_castValue

end Plain

def theme : Host :=
  .object ⟨[("gap", .number 4), ("fonts", .object ⟨[("body", .string "serif")]⟩),
    ("steps", .list [.number 1, .object ⟨[("at", .number 2), ("by", .list [] none)]⟩] none)]⟩

theorem toHostWith_toValue_theme :
    theme.Plain ∧ ∃ v, theme.toValue = .ok v ∧
      (v.toHostWith fun entries => .object (Value.objectOf entries)) =
        .object ⟨[("gap", .dimension (.unitless 4)),
          ("fonts", .object ⟨[("body", .string "serif")]⟩),
          ("steps", .list [.dimension (.unitless 1),
            .map (.ofEntries [(.string "at", .unitless 2), (.string "by", .list [] .comma)])]
              (some .comma))]⟩ ∧
      v.toHost = theme.mapForm := by
  have steps : (Host.object ⟨[("at", .number 2), ("by", .list [] none)]⟩).Plain := by
    have keys : ["at", "by"].Nodup := by decide
    refine .object keys (List.forall_mem_cons.mpr ⟨.number 2, ?_⟩)
    exact List.forall_mem_singleton.mpr (.list nofun)
  have plain : theme.Plain := by
    have keys : ["gap", "fonts", "steps"].Nodup := by decide
    refine .object keys (List.forall_mem_cons.mpr ⟨.number 4, List.forall_mem_cons.mpr ⟨?_, ?_⟩⟩)
    · exact .object (List.nodup_singleton "body") (List.forall_mem_singleton.mpr (.string "serif"))
    · refine List.forall_mem_singleton.mpr (.list ?_)
      exact List.forall_mem_cons.mpr ⟨.number 1, List.forall_mem_singleton.mpr steps⟩
  obtain ⟨v, cast, back, keyed⟩ := plain.toHostWith_toValue
  exact ⟨plain, v, cast, back.trans rfl, keyed⟩

end Host

end StyleValues
