import StyleValues.Json.Reader
import StyleValues.Proofs.Json.NormalForm

/-! What is read from a text has no key twice in an object, and is no deeper than the reader goes.
-/

namespace StyleValues

namespace Json

/-- What can be read with so many arrays and objects open at a time: no object has a key twice. -/
inductive Readable : Nat → Json → Prop
  | null (depth : Nat) : Readable depth .null
  | bool (depth : Nat) (b : Bool) : Readable depth (.bool b)
  | number (depth : Nat) (n : JsonNumber) : Readable depth (.number n)
  | string (depth : Nat) (text : String) : Readable depth (.string text)
  | array {depth : Nat} {items : List Json} (inner : ∀ j ∈ items, Readable depth j) :
      Readable (depth + 1) (.array items)
  | object {depth : Nat} {fields : Table Json} (distinct : fields.Distinct)
      (inner : ∀ field ∈ fields.entries, Readable depth field.2) :
      Readable (depth + 1) (.object fields)

theorem Readable.distinctKeys {depth : Nat} {j : Json} (readable : Readable depth j) :
    j.DistinctKeys := by
  induction readable with
  | null => exact .null
  | bool _ b => exact .bool b
  | number _ n => exact .number n
  | string _ text => exact .string text
  | array _ ih => exact .array ih
  | object distinct _ ih => exact .object distinct ih

theorem Readable.ofList {depth : Nat} {fields : List (String × Json)}
    (inner : ∀ field ∈ fields, Readable depth field.2) :
    Readable (depth + 1) (.object (.ofList fields)) := by
  refine .object (Table.Distinct.ofList fields) fun field member => ?_
  exact inner field (Table.mem_of_mem_ofList member)

section Yields

variable {tokens others : List JsonToken}

def Yields (read : Option (α × Rest tokens)) (Good : α → Prop) : Prop :=
  ∀ a rest, read = some (a, rest) → Good a

theorem Yields.some {a : α} {rest : Rest tokens} {Good : α → Prop} (good : Good a) :
    Yields (some (a, rest)) Good := by
  intro b behind same
  cases same
  exact good

theorem Yields.none {Good : α → Prop} : Yields (none : Option (α × Rest tokens)) Good := nofun

theorem Yields.map {read : Option (α × Rest tokens)} {Good : α → Prop} (yields : Yields read Good)
    {f : α × Rest tokens → β × Rest others} {Better : β → Prop}
    (better : ∀ a rest, Good a → Better (f (a, rest)).1) : Yields (read.map f) Better := by
  intro b behind same
  obtain ⟨⟨a, rest⟩, found, form⟩ := Option.map_eq_some_iff.mp same
  have good : Better (f (a, rest)).1 := better a rest (yields a rest found)
  rw [form] at good
  exact good

end Yields

theorem yields_value? (depth : Nat) (tokens : List JsonToken) :
    Yields (value? depth tokens) (Readable depth) := by
  refine value?.induct (fun depth tokens => Yields (value? depth tokens) (Readable depth))
    (fun depth tokens => Yields (fields? depth tokens) fun fields =>
      ∀ field ∈ fields, Readable depth field.2)
    (fun depth tokens => Yields (items? depth tokens) fun items => ∀ j ∈ items, Readable depth j)
    ?null ?bool ?number ?string ?emptyArray ?emptyObject ?array ?object ?noValue
    ?field ?lastField ?unclosedField ?noField ?item ?lastItem ?unclosedItem depth tokens
  case null =>
    intro depth tail
    rw [value?]
    exact .some (.null depth)
  case bool =>
    intro depth b tail
    rw [value?]
    exact .some (.bool depth b)
  case number =>
    intro depth n tail
    rw [value?]
    exact .some (.number depth n)
  case string =>
    intro depth text tail
    rw [value?]
    exact .some (.string depth text)
  case emptyArray =>
    intro depth tail
    rw [value?]
    exact .some (.array nofun)
  case emptyObject =>
    intro depth tail
    rw [value?]
    exact .some (.object List.nodup_nil nofun)
  case array =>
    intro depth tokens filled items
    rw [value?]
    · exact items.map fun _ _ inner => .array inner
    · exact filled
  case object =>
    intro depth tokens filled fields
    rw [value?]
    · exact fields.map fun _ _ inner => Readable.ofList inner
    · exact filled
  case noValue =>
    intros
    rw [value?]
    · exact .none
    all_goals assumption
  case field =>
    intro depth key tokens v behind shorter first value fields
    rw [fields?, first]
    exact fields.map fun _ _ inner => List.forall_mem_cons.mpr ⟨value _ _ first, inner⟩
  case lastField =>
    intro depth key tokens v behind shorter first value
    rw [fields?, first]
    exact .some (List.forall_mem_singleton.mpr (value _ _ first))
  case unclosedField =>
    intro depth key tokens notComma notClosed value
    rw [fields?]
    split
    · rename_i first
      exact (notComma _ _ _ first).elim
    · rename_i first
      exact (notClosed _ _ _ first).elim
    · exact .none
  case noField =>
    intro depth tokens noField
    rw [fields?]
    · exact .none
    · exact noField
  case item =>
    intro depth tokens v behind shorter first value items
    rw [items?, first]
    exact items.map fun _ _ inner => List.forall_mem_cons.mpr ⟨value _ _ first, inner⟩
  case lastItem =>
    intro depth tokens v behind shorter first value
    rw [items?, first]
    exact .some (List.forall_mem_singleton.mpr (value _ _ first))
  case unclosedItem =>
    intro depth tokens notComma notClosed value
    rw [items?]
    split
    · rename_i first
      exact (notComma _ _ _ first).elim
    · rename_i first
      exact (notClosed _ _ _ first).elim
    · exact .none

theorem readable_of_parse? {text : String} {j : Json} (read : parse? text = some j) :
    Readable depthLimit j := by
  obtain ⟨tokens, scanned, read⟩ := Option.bind_eq_some_iff.mp read
  split at read
  · rename_i v whole first
    cases read
    exact yields_value? _ _ _ _ first
  · cases read

end Json

end StyleValues
