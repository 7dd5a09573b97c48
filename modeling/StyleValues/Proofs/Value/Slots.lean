import Mathlib
import StyleValues.Value.Slots

/-! Lists and maps that are filled slot by slot, over any run of edits. Keys and values of a map
stay paired, an edit that asks for a slot past the end changes nothing, and any other changes its
own slot only. -/

namespace StyleValues

section Items

variable {items : List α} {index : Nat}

/-- The item at an index is this one, and all others stay. -/
structure Replaced (before after : List α) (index : Nat) (item : α) : Prop where
  length : after.length = before.length
  here : after[index]? = some item
  elsewhere : ∀ i, i ≠ index → after[i]? = before[i]?

theorem setAt_of_lt (inside : index < items.length) (item : α) :
    setAt items index item = .ok (items.set index item) :=
  if_pos inside

theorem setAt_of_le (outside : items.length ≤ index) (item : α) :
    setAt items index item = .error (.indexOutOfBounds index items.length) :=
  if_neg (Nat.not_lt.mpr outside)

theorem replaced_set (inside : index < items.length) (item : α) :
    Replaced items (items.set index item) index item where
  length := List.length_set
  here := List.getElem?_set_self inside
  elsewhere _ other := List.getElem?_set_ne other.symm

end Items

/-- Programs on a container that they hold. One that fails does not take back what it has written.
-/
abbrev Filling (σ : Type) := ExceptT ValueError (StateM σ)

namespace Filling

variable {σ : Type} {next : σ → Except ValueError σ} {s t : σ}

def on (program : Filling σ Unit) (s : σ) : Except ValueError Unit × σ :=
  StateT.run (ExceptT.run program) s

def replace (next : σ → Except ValueError σ) : Filling σ Unit := do
  set (← ExceptT.mk (pure (next (← get))))

theorem on_replace_of_ok (found : next s = .ok t) : (replace next).on s = (.ok (), t) := by
  change StateT.run (ExceptT.bindCont _ (next s)) s = _
  rw [found]
  rfl

theorem on_replace_of_error {cause : ValueError} (refused : next s = .error cause) :
    (replace next).on s = (.error cause, s) := by
  change StateT.run (ExceptT.bindCont _ (next s)) s = _
  rw [refused]
  rfl

/-- A program that asks for a slot fails where the slot lies past the end, and leaves all as it was.
Everywhere else it makes its changes. -/
structure Obeys (program : Filling σ Unit) (slot? : Option Nat) (length : Nat)
    (Changes : σ → σ → Prop) (s : σ) : Prop where
  fails : ∀ index ∈ slot?, length ≤ index →
    program.on s = (.error (.indexOutOfBounds index length), s)
  succeeds : (∀ index ∈ slot?, index < length) → ∃ t, program.on s = (.ok (), t) ∧ Changes s t

namespace Obeys

variable {program : Filling σ Unit} {length : Nat} {Changes : σ → σ → Prop}

theorem of_ok (made : program.on s = (.ok (), t)) (changes : Changes s t) :
    Obeys program none length Changes s :=
  ⟨nofun, fun _ => ⟨t, made, changes⟩⟩

theorem leaves {slot? : Option Nat} (obeys : Obeys program slot? length Changes s)
    {P : σ → Prop} (stays : slot?.isSome → P s) (changes : ∀ t, Changes s t → P t) :
    P (program.on s).2 := by
  by_cases inside : ∀ index ∈ slot?, index < length
  · obtain ⟨t, made, changed⟩ := obeys.succeeds inside
    rw [made]
    exact changes t changed
  · cases slot? with
    | none => exact absurd nofun inside
    | some index =>
      have outside : length ≤ index := by simpa using inside
      rw [obeys.fails index rfl outside]
      exact stays rfl

end Obeys

theorem obeys_setAt {items : σ → List α} {update : σ → List α → σ} {index : Nat} {item : α}
    {Changes : σ → σ → Prop}
    (changes : ∀ after, Replaced (items s) after index item → Changes s (update s after)) :
    Obeys (replace fun s => return update s (← setAt (items s) index item)) (some index)
      (items s).length Changes s where
  fails i asked outside := by
    cases asked
    apply on_replace_of_error
    rw [setAt_of_le outside]
    rfl
  succeeds inside := by
    have there := inside index rfl
    refine ⟨_, on_replace_of_ok ?_, changes _ (replaced_set there item)⟩
    rw [setAt_of_lt there]
    rfl

end Filling

namespace MapSlots

inductive Start
  | empty
  | ofLength (n : Nat)
  | ofEntries (entries : List (Value × Value))

def Start.slots : Start → MapSlots
  | .empty => .empty
  | .ofLength n => .ofLength n
  | .ofEntries entries => .ofEntries entries

def Start.entries : Start → List (Value × Value)
  | .empty => []
  | .ofLength n => List.replicate n (.null, .null)
  | .ofEntries entries => entries

theorem entries_slots (start : Start) : start.slots.entries = start.entries := by
  cases start with
  | empty => rfl
  | ofLength n => exact entries_ofLength n
  | ofEntries entries => exact entries_ofEntries entries

inductive Edit
  | setKey (index : Nat) (key : Value)
  | setValue (index : Nat) (v : Value)
  | push (key v : Value)

namespace Edit

def program : Edit → Filling MapSlots Unit
  | .setKey index key => .replace (·.setKey index key)
  | .setValue index v => .replace (·.setValue index v)
  | .push key v => .replace fun s => .ok (s.push key v)

def slot? : Edit → Option Nat
  | .setKey index _ | .setValue index _ => some index
  | .push .. => none

/-- What becomes of a map where an edit does not fail. -/
def Changes : Edit → MapSlots → MapSlots → Prop
  | .setKey index key, s, t => Replaced s.keys t.keys index key ∧ t.values = s.values
  | .setValue index v, s, t => t.keys = s.keys ∧ Replaced s.values t.values index v
  | .push key v, s, t => t.keys = s.keys ++ [key] ∧ t.values = s.values ++ [v] ∧
      t.entries = s.entries ++ [(key, v)]

def added : Edit → Nat
  | .setKey .. | .setValue .. => 0
  | .push .. => 1

end Edit

def afterEdits (s : MapSlots) (edits : List Edit) : MapSlots :=
  edits.foldl (fun s edit => (edit.program.on s).2) s

def Aligned (s : MapSlots) : Prop := s.values.length = s.keys.length

/-- Every key has a value and every value a key. -/
structure Paired (s : MapSlots) : Prop where
  aligned : s.Aligned
  length : s.entries.length = s.length
  entry : ∀ index < s.length, ∃ key v, s.key? index = some key ∧ s.value? index = some v ∧
    s.entries[index]? = some (key, v)
  keys : s.entries.map Prod.fst = s.keys
  values : s.entries.map Prod.snd = s.values

theorem aligned_slots (start : Start) : start.slots.Aligned := by
  cases start <;> simp [Aligned, Start.slots, empty, ofLength, ofEntries]

variable {s : MapSlots}

theorem Aligned.paired (aligned : s.Aligned) : s.Paired where
  aligned := aligned
  length := by
    unfold entries MapSlots.length
    rw [List.length_zip, aligned, Nat.min_self]
  entry index inside := by
    have there : index < s.values.length := aligned ▸ inside
    refine ⟨s.keys[index], s.values[index], ?_, ?_, ?_⟩
    · exact List.getElem?_eq_getElem inside
    · exact List.getElem?_eq_getElem there
    · exact List.getElem?_zip_eq_some.mpr
        ⟨List.getElem?_eq_getElem inside, List.getElem?_eq_getElem there⟩
  keys := List.map_fst_zip (Nat.le_of_eq aligned.symm)
  values := List.map_snd_zip (Nat.le_of_eq aligned)

theorem Aligned.obeys (aligned : s.Aligned) (edit : Edit) :
    edit.program.Obeys edit.slot? s.length edit.Changes s := by
  cases edit with
  | setKey index key =>
    exact Filling.obeys_setAt fun after replaced => ⟨replaced, rfl⟩
  | setValue index v =>
    rw [length, ← aligned]
    exact Filling.obeys_setAt fun after replaced => ⟨rfl, replaced⟩
  | push key v =>
    exact .of_ok (Filling.on_replace_of_ok rfl) ⟨rfl, rfl, List.zip_append aligned.symm⟩

/-- An edit keeps as many values as keys, and adds to both alike. -/
theorem Aligned.next (aligned : s.Aligned) (edit : Edit) :
    (edit.program.on s).2.Aligned ∧ (edit.program.on s).2.length = s.length + edit.added := by
  refine (aligned.obeys edit).leaves (P := fun t => t.Aligned ∧ t.length = s.length + edit.added)
    (fun asks => ?_) fun t changed => ?_
  · cases edit with
    | setKey | setValue => exact ⟨aligned, rfl⟩
    | push => cases asks
  · cases edit with
    | setKey index key =>
      obtain ⟨replaced, same⟩ := changed
      refine ⟨?_, replaced.length⟩
      rw [Aligned, same, replaced.length]
      exact aligned
    | setValue index v =>
      obtain ⟨same, replaced⟩ := changed
      refine ⟨?_, congrArg List.length same⟩
      rw [Aligned, same, replaced.length]
      exact aligned
    | push key v =>
      obtain ⟨keys, values, -⟩ := changed
      constructor
      · rw [Aligned, keys, values, List.length_append, List.length_append, aligned]
        rfl
      · rw [length, keys, List.length_append]
        rfl

theorem Aligned.afterEdits (aligned : s.Aligned) (edits : List Edit) :
    (s.afterEdits edits).Aligned ∧
      (s.afterEdits edits).length = s.length + (edits.map Edit.added).sum := by
  induction edits generalizing s with
  | nil => exact ⟨aligned, rfl⟩
  | cons edit edits ih =>
    obtain ⟨kept, longer⟩ := aligned.next edit
    obtain ⟨keptAll, longerAll⟩ := ih kept
    refine ⟨keptAll, longerAll.trans ?_⟩
    rw [longer, List.map_cons, List.sum_cons, Nat.add_assoc]

end MapSlots

namespace ListSlots

inductive Edit
  | set (index : Nat) (v : Value)
  | push (v : Value)
  | withSeparator (separator : Separator)

namespace Edit

def program : Edit → Filling ListSlots Unit
  | .set index v => .replace (·.set index v)
  | .push v => .replace fun s => .ok (s.push v)
  | .withSeparator separator => .replace fun s => .ok (s.withSeparator separator)

def slot? : Edit → Option Nat
  | .set index _ => some index
  | .push _ | .withSeparator _ => none

/-- What becomes of a list where an edit does not fail. -/
def Changes : Edit → ListSlots → ListSlots → Prop
  | .set index v, s, t => Replaced s.items t.items index v ∧ t.separator = s.separator
  | .push v, s, t => t.items = s.items ++ [v] ∧ t.separator = s.separator
  | .withSeparator separator, s, t => t.items = s.items ∧ t.separator = separator

def added : Edit → Nat
  | .set .. | .withSeparator _ => 0
  | .push _ => 1

def separator? : Edit → Option Separator
  | .set .. | .push _ => none
  | .withSeparator separator => some separator

end Edit

def afterEdits (s : ListSlots) (edits : List Edit) : ListSlots :=
  edits.foldl (fun s edit => (edit.program.on s).2) s

theorem obeys (s : ListSlots) (edit : Edit) :
    edit.program.Obeys edit.slot? s.length edit.Changes s := by
  cases edit with
  | set index v => exact Filling.obeys_setAt fun after replaced => ⟨replaced, rfl⟩
  | push v => exact .of_ok (Filling.on_replace_of_ok rfl) ⟨rfl, rfl⟩
  | withSeparator separator => exact .of_ok (Filling.on_replace_of_ok rfl) ⟨rfl, rfl⟩

theorem length_next (s : ListSlots) (edit : Edit) :
    (edit.program.on s).2.length = s.length + edit.added := by
  refine (s.obeys edit).leaves (P := fun t => t.length = s.length + edit.added)
    (fun asks => ?_) fun t changed => ?_
  · cases edit with
    | set => rfl
    | push | withSeparator => cases asks
  · cases edit with
    | set index v => exact changed.1.length
    | push v =>
      rw [length, changed.1, List.length_append]
      rfl
    | withSeparator separator => exact congrArg List.length changed.1

theorem separator_next (s : ListSlots) (edit : Edit) :
    (edit.program.on s).2.separator = edit.separator?.getD s.separator := by
  refine (s.obeys edit).leaves (P := fun t => t.separator = edit.separator?.getD s.separator)
    (fun asks => ?_) fun t changed => ?_
  · cases edit with
    | set => rfl
    | push | withSeparator => cases asks
  · cases edit <;> exact changed.2

theorem length_afterEdits (s : ListSlots) (edits : List Edit) :
    (s.afterEdits edits).length = s.length + (edits.map Edit.added).sum := by
  induction edits generalizing s with
  | nil => rfl
  | cons edit edits ih =>
    refine (ih _).trans ?_
    rw [s.length_next edit, List.map_cons, List.sum_cons, Nat.add_assoc]

theorem separator_afterEdits (s : ListSlots) (edits : List Edit) :
    (s.afterEdits edits).separator =
      (edits.filterMap Edit.separator?).getLast?.getD s.separator := by
  induction edits generalizing s with
  | nil => rfl
  | cons edit edits ih =>
    refine (ih _).trans ?_
    rw [s.separator_next edit]
    cases edit <;> simp [List.getLast?_cons, Edit.separator?]

end ListSlots

/-- A map starts with the pairs that it is made of. After any edits, its keys and values are paired,
a list or a map has grown by one slot for each push, and a list has the separator that it was last
given. The next edit fails exactly where it asks for a slot past the end, and then it changes
nothing. -/
theorem slots_stay_consistent :
    (∀ (start : MapSlots.Start) (edits : List MapSlots.Edit),
      let s := start.slots.afterEdits edits
      start.slots.entries = start.entries ∧ s.Paired ∧
        s.length = start.slots.length + (edits.map MapSlots.Edit.added).sum ∧
        ∀ edit : MapSlots.Edit, edit.program.Obeys edit.slot? s.length edit.Changes s) ∧
    ∀ (start : ListSlots) (edits : List ListSlots.Edit),
      let s := start.afterEdits edits
      s.length = start.length + (edits.map ListSlots.Edit.added).sum ∧
        s.separator = (edits.filterMap ListSlots.Edit.separator?).getLast?.getD start.separator ∧
        ∀ edit : ListSlots.Edit, edit.program.Obeys edit.slot? s.length edit.Changes s := by
  constructor
  · intro start edits
    obtain ⟨aligned, length⟩ := (MapSlots.aligned_slots start).afterEdits edits
    exact ⟨MapSlots.entries_slots start, aligned.paired, length, aligned.obeys⟩
  · intro start edits
    exact ⟨start.length_afterEdits edits, start.separator_afterEdits edits, ListSlots.obeys _⟩

example (k v : Value) : ((MapSlots.ofLength 1).afterEdits
    [.setKey 0 k, .setValue 1 v, .push v k]).entries = [(k, .null), (v, k)] := rfl

end StyleValues
