import StyleValues.Host.Json
import StyleValues.Proofs.Host.Parts
import StyleValues.Proofs.KeyedMap.ValueForm
import StyleValues.Proofs.Value.Exposed

/-! The JSON that is written of a value. While no map in it repeats a key, it makes no difference
what the maps are cast to on the way. -/

namespace StyleValues

namespace Value

inductive Within (part : Value) : Value → Prop
  | itself : Within part part
  | item {v : Value} {items : List Value} {separator : Separator} (member : v ∈ items)
      (inside : Within part v) : Within part (.list items separator)
  | held {entry : Value × Value} {entries : List (Value × Value)} (member : entry ∈ entries)
      (inside : Within part entry.2) : Within part (.map entries)

/-- No map within has two keys of one fingerprint. Maps within keys may. -/
def KeysApart (v : Value) : Prop :=
  ∀ entries, Within (.map entries) v → (keyFingerprints entries).Nodup

theorem keysApart_list {items : List Value} {separator : Separator} :
    (Value.list items separator).KeysApart ↔ ∀ v ∈ items, v.KeysApart := by
  constructor
  · exact fun apart v member entries inside => apart entries (.item member inside)
  · intro each entries inside
    cases inside with
    | item member inside => exact each _ member entries inside

theorem keysApart_map {entries : List (Value × Value)} :
    (Value.map entries).KeysApart ↔
      (keyFingerprints entries).Nodup ∧ ∀ entry ∈ entries, entry.2.KeysApart := by
  constructor
  · intro apart
    exact ⟨apart entries .itself,
      fun entry member below inside => apart below (.held member inside)⟩
  · rintro ⟨distinct, each⟩ below inside
    cases inside with
    | itself => exact distinct
    | held member inside => exact each _ member below inside

theorem keysApart_of_leaf {v : Value} (leaf : [Kind.list, .map].contains v.kind = false) :
    v.KeysApart := by
  intro entries inside
  cases inside with
  | itself => cases leaf
  | item => cases leaf
  | held => cases leaf

def lastOfText? (entries : List (Value × Value)) (text : String) : Option (Value × Value) :=
  entries.findRev? fun entry => entry.1.keyText == text

/-- The JSON that stands for a value. Of the entries of a map whose keys have one text, the first
gives the place and the last the value. -/
inductive WrittenAs : Value → Json → Prop
  | string (text : String) : WrittenAs (.string text) (.string text)
  | number (x : Float) (unit : String) :
      WrittenAs (.number x unit) (Dimension.ofNumber x unit).toJson
  | bool (b : Bool) : WrittenAs (.bool b) (.bool b)
  | null : WrittenAs .null .null
  | color (c : Color) : WrittenAs (.color c) (.string c.text)
  | list {items : List Value} {separator : Separator} {written : List Json}
      (inner : List.Forall₂ WrittenAs items written) :
      WrittenAs (.list items separator) (.array written)
  | map {entries : List (Value × Value)} {fields : Table Json}
      (keys_eq : fields.keys = (entries.map fun entry => entry.1.keyText).eraseDups)
      (inner : ∀ text entry j, lastOfText? entries text = some entry →
        fields.get? text = some j → WrittenAs entry.2 j) :
      WrittenAs (.map entries) (.object fields)
  | error (text : String) : WrittenAs (.error text) (.string "ERROR!")

def jsonFields (entries : List (Value × Value)) : List (String × Json) :=
  entries.map fun entry => (entry.1.keyText, entry.2.toJson)

theorem toJson_map {entries : List (Value × Value)} (distinct : (keyFingerprints entries).Nodup) :
    (Value.map entries).toJson = .object (.ofList (jsonFields entries)) := by
  have kept : (Table.ofList (jsonEntries entries)).values = jsonFields entries := by
    rw [jsonEntries_eq_map, Table.ofList_of_nodup, Table.values, List.map_map]
    · rfl
    · rw [List.map_map]
      exact distinct
  rw [toJson, Json.ofKeyed, kept]

theorem keys_jsonFields (entries : List (Value × Value)) :
    (Table.ofList (jsonFields entries)).keys =
      (entries.map fun entry => entry.1.keyText).eraseDups := by
  rw [Table.keys_ofList, jsonFields, List.map_map]
  rfl

theorem get?_jsonFields (entries : List (Value × Value)) (text : String) :
    (Table.ofList (jsonFields entries)).get? text =
      (lastOfText? entries text).map fun entry => entry.2.toJson := by
  rw [Table.get?_ofList, jsonFields, findRev?_map, Option.map_map]
  rfl

theorem writtenAs_toJson {v : Value} (apart : v.KeysApart) : v.WrittenAs v.toJson := by
  induction v with
  | list items separator ih =>
    rw [toJson, jsonItems_eq_map]
    refine .list (List.forall₂_map_right_iff.mpr (List.forall₂_same.mpr fun v member => ?_))
    exact ih v member (keysApart_list.mp apart v member)
  | map entries ih =>
    obtain ⟨distinct, each⟩ := keysApart_map.mp apart
    rw [toJson_map distinct]
    refine .map (keys_jsonFields entries) fun text entry j last found => ?_
    have member : entry ∈ entries := mem_of_findRev? last
    rw [get?_jsonFields, last] at found
    cases found
    exact (ih entry member).2 (each entry member)
  | string text => exact .string text
  | number x unit => exact .number x unit
  | bool b => exact .bool b
  | null => exact .null
  | color c => exact .color c
  | error text => exact .error text

theorem toJson_toObjectHost {v : Value} (apart : v.KeysApart) :
    v.toObjectHost.toJson = .ok v.toJson := by
  induction v with
  | map entries ih =>
    obtain ⟨distinct, inner⟩ := keysApart_map.mp apart
    let held := Table.ofList (entries.map fun entry => (entry.1.keyText, entry.2))
    have cast : Table.ofList (objectFields entries) = held.mapped toObjectHost := by
      rw [objectFields_eq_map, Table.mapped_ofList, List.map_map]
      rfl
    have written : held.mapped toJson = .ofList (jsonFields entries) := by
      rw [Table.mapped_ofList, List.map_map]
      rfl
    have each : ∀ field ∈ held.entries, field.2.toObjectHost.toJson = .ok field.2.toJson := by
      intro field member
      obtain ⟨entry, inside, rfl⟩ := List.mem_map.mp (Table.mem_of_mem_ofList member)
      exact (ih entry inside).2 (inner entry inside)
    rw [toObjectHost, cast, Host.toJson, Host.jsonTable_mapped each, written,
      toJson_map distinct]
    rfl
  -- Below a list both casts are one, so that nothing is left to the induction hypothesis.
  | _ => exact toJson_toHost _

/-- Cast with keyed maps for maps, cast with objects for maps, and not cast at all, a value is
written as the same JSON, also where keys of unlike kinds have one text. -/
theorem toJson_of_keysApart {v : Value} (apart : v.KeysApart) :
    ∃ j, v.toHost.toJson = .ok j ∧
      (v.toHostWith fun entries => .object (objectOf entries)).toJson = .ok j ∧
      (Host.tagged v).toJson = .ok j ∧ v.WrittenAs j := by
  refine ⟨v.toJson, v.toJson_toHost, ?_, rfl, writtenAs_toJson apart⟩
  rw [← toObjectHost_eq_toHostWith]
  exact toJson_toObjectHost apart

def tints : Value :=
  .list [.color ⟨0, 1, 2, 1⟩, .map [(.bool true, .error "no")]] .space

def measures : Value :=
  .map [(.string "2px", .null), (.string "tints", tints),
    (.number 2 "px", .map [(.null, .bool true)])]

theorem toJson_of_keysApart_measures :
    measures.KeysApart ∧ ∃ j, measures.toHost.toJson = .ok j ∧
      (measures.toHostWith fun entries => .object (objectOf entries)).toJson = .ok j ∧
      (Host.tagged measures).toJson = .ok j ∧
      j = .object ⟨[("2px", .object ⟨[("null", .bool true)]⟩),
        ("tints", .array
          [.string "rgba(0, 1, 2, 1)", .object ⟨[("true", .string "ERROR!")]⟩])]⟩ := by
  have apart : measures.KeysApart := by
    have inner : tints.KeysApart := by
      refine keysApart_list.mpr (List.forall_mem_cons.mpr ⟨keysApart_of_leaf rfl, ?_⟩)
      refine List.forall_mem_singleton.mpr (keysApart_map.mpr ⟨by decide, ?_⟩)
      exact List.forall_mem_singleton.mpr (keysApart_of_leaf rfl)
    refine keysApart_map.mpr ⟨by decide +kernel, ?_⟩
    refine List.forall_mem_cons.mpr ⟨keysApart_of_leaf rfl, ?_⟩
    refine List.forall_mem_cons.mpr ⟨inner, List.forall_mem_singleton.mpr ?_⟩
    refine keysApart_map.mpr ⟨by decide, ?_⟩
    exact List.forall_mem_singleton.mpr (keysApart_of_leaf rfl)
  obtain ⟨j, keyed, objects, tagged, -⟩ := toJson_of_keysApart apart
  refine ⟨apart, j, keyed, objects, tagged, ?_⟩
  rw [← Except.ok.inj tagged]
  rfl

end Value

end StyleValues
