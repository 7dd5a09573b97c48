import StyleValues.Proofs.KeyedMap.ValueForm
import StyleValues.Proofs.Value.Equal

/-! Equal keyed maps. Equality looks at keys and what they hold, not at the fingerprints that
entries are found under; yet no reader tells equal maps apart. -/

namespace StyleValues

namespace Stored

def SamePair (p q : Value × Stored) : Prop := p.1.same q.1 ∧ p.2.same q.2

theorem sameTable_iff {m n : KeyedMap} :
    sameTable m n ↔ List.Forall₂ SamePair m.pairs n.pairs := by
  obtain ⟨entries⟩ := m
  obtain ⟨others⟩ := n
  rw [sameTable, KeyedMap.pairs, KeyedMap.pairs, Table.values, Table.values]
  induction entries generalizing others with
  | nil => cases others <;> simp [samePairs]
  | cons entry rest ih =>
    cases others with
    | nil => simp [samePairs]
    | cons other others => simp [samePairs, ih, SamePair, BEq.beq]

theorem text_eq_of_same {s t : Stored} (same : s.same t) : s.text = t.text := by
  induction s generalizing t with
  | tagged v =>
    cases t with
    | tagged w => exact Value.text_eq_of_same same
    | nested n => cases same
  | nested m ih =>
    cases t with
    | tagged w => cases same
    | nested n =>
      rw [text, text, tableText_eq_mapText, tableText_eq_mapText]
      exact congrArg mapText (map_eq_of_forall₂ (sameTable_iff.mp same) fun p member q same =>
        Prod.ext (Value.text_eq_of_same same.1) (ih p member same.2))

end Stored

namespace KeyedMap

theorem text_eq_of_same {m n : KeyedMap} (same : m.same n) : m.text = n.text :=
  Stored.text_eq_of_same (s := .nested m) (t := .nested n) same

/-- Keys that are equal have one fingerprint, so that equal maps have the same entries under it. -/
theorem find?_rel_of_same {m n : KeyedMap} (keyed : m.Keyed) (keyed' : n.Keyed) (same : m.same n)
    (key : Value) : Option.Rel (fun s t => s.same t) (m.find? key) (n.find? key) := by
  have related : List.Forall₂ (fun e f => e.1 = f.1 ∧ Stored.SamePair e.2 f.2)
      m.entries n.entries := by
    rw [keyed.entries_eq, keyed'.entries_eq, List.forall₂_map_left_iff,
      List.forall₂_map_right_iff]
    exact (Stored.sameTable_iff.mp same).imp fun _ _ each =>
      ⟨Value.fingerprint_eq_of_same each.1, each⟩
  have found : Option.Rel Stored.SamePair (m.get? key.fingerprint) (n.get? key.fingerprint) :=
    Table.find_rel related key.fingerprint
  rw [find?, find?]
  generalize m.get? key.fingerprint = p? at found ⊢
  generalize n.get? key.fingerprint = q? at found ⊢
  cases found with
  | some held => exact .some held.2
  | none => exact .none

/-- Equal values are one key. So equal maps, which may differ in the signs of zeros anywhere in
them, have one text, and under every key they hold nothing both, or equal values. -/
theorem equality_keeps_keys :
    (∀ v w : Value, v == w → v.fingerprint = w.fingerprint) ∧
    ∀ m n : ValueMap, m.map.same n.map →
      m.map.text = n.map.text ∧
        ∀ key, m.map.has key = n.map.has key ∧ m.map.find? key == n.map.find? key := by
  refine ⟨fun v w => Value.fingerprint_eq_of_same, fun m n same => ?_⟩
  refine ⟨text_eq_of_same same, fun key => ?_⟩
  have found := find?_rel_of_same m.wellFormed.keyed n.wellFormed.keyed same key
  rw [has_eq_isSome_find?, has_eq_isSome_find?]
  generalize m.map.find? key = s? at found ⊢
  generalize n.map.find? key = t? at found ⊢
  cases found with
  | some held => exact ⟨rfl, held⟩
  | none => exact ⟨rfl, rfl⟩

def zeroKey (zero : Float) : Value :=
  .list [.number zero "px", .map [(.color ⟨zero, 1, 1, 1⟩, .null)]] .space

def zeroMap (zero : Float) : ValueMap :=
  ValueMap.empty.set (zeroKey zero)
    (.nested (ValueMap.empty.set (.string "gap") (.tagged (.number zero "em"))))

theorem equality_keeps_keys_zeros :
    zeroKey 0 == zeroKey (-0) ∧ (zeroKey 0).fingerprint = (zeroKey (-0)).fingerprint ∧
      (zeroMap 0).map.same (zeroMap (-0)).map ∧ (zeroMap 0).map.text = (zeroMap (-0)).map.text ∧
      (zeroMap (-0)).map.text = "((0px (rgba(0, 1, 1, 1): null)): (gap: 0em))" ∧
      (zeroMap 0).map.has (zeroKey 0) = (zeroMap (-0)).map.has (zeroKey 0) ∧
      (zeroMap 0).map.find? (zeroKey 0) == (zeroMap (-0)).map.find? (zeroKey 0) := by
  have keys : zeroKey 0 == zeroKey (-0) := by decide +kernel
  have same : (zeroMap 0).map.same (zeroMap (-0)).map := by decide +kernel
  obtain ⟨text, readers⟩ := equality_keeps_keys.2 _ _ same
  exact ⟨keys, equality_keeps_keys.1 _ _ keys, same, text, by decide +kernel,
    readers (zeroKey 0)⟩

end KeyedMap

end StyleValues
