/-! Values as a stylesheet preprocessor hands them to a function: each carries its own kind. -/

namespace StyleValues

inductive Separator
  | comma
  | space
  deriving DecidableEq, Repr

structure Color where
  red : Float
  green : Float
  blue : Float
  alpha : Float := 1

/-- Components compare as numbers: no color with a component that is not a number equals itself. -/
def Color.same (a b : Color) : Bool :=
  a.red == b.red && a.green == b.green && a.blue == b.blue && a.alpha == b.alpha

/-- The unit of a number is one text, empty if there is none. A map keeps its entries in order and
may repeat a key. -/
inductive Value
  | string (text : String)
  | number (value : Float) (unit : String)
  | bool (b : Bool)
  | null
  | color (c : Color)
  | list (items : List Value) (separator : Separator)
  | map (entries : List (Value × Value))
  | error (text : String)

namespace Value

@[induction_eliminator]
theorem ind {motive : Value → Prop} (string : ∀ text, motive (.string text))
    (number : ∀ x unit, motive (.number x unit)) (bool : ∀ b, motive (.bool b))
    (null : motive .null) (color : ∀ c, motive (.color c))
    (list : ∀ items separator, (∀ v ∈ items, motive v) → motive (.list items separator))
    (map : ∀ entries, (∀ entry ∈ entries, motive entry.1 ∧ motive entry.2) →
      motive (.map entries))
    (error : ∀ text, motive (.error text)) (v : Value) : motive v :=
  Value.rec (motive_2 := fun items => ∀ v ∈ items, motive v)
    (motive_3 := fun entries => ∀ entry ∈ entries, motive entry.1 ∧ motive entry.2)
    (motive_4 := fun entry => motive entry.1 ∧ motive entry.2)
    string number bool null color list map error nofun
    (fun _ _ first rest => List.forall_mem_cons.mpr ⟨first, rest⟩) nofun
    (fun _ _ first rest => List.forall_mem_cons.mpr ⟨first, rest⟩)
    (fun _ _ key value => ⟨key, value⟩) v

/-! Equality of structure. Numbers compare as doubles: zero equals negative zero, and what is not a
number equals nothing. -/

mutual

def same : Value → Value → Bool
  | .string a, .string b => a == b
  | .number x u, .number y v => x == y && u == v
  | .bool a, .bool b => a == b
  | .null, .null => true
  | .color a, .color b => a.same b
  | .list xs s, .list ys t => sameItems xs ys && s == t
  | .map xs, .map ys => sameEntries xs ys
  | .error a, .error b => a == b
  | _, _ => false
termination_by structural a => a

def sameItems : List Value → List Value → Bool
  | [], [] => true
  | a :: as, b :: bs => a.same b && sameItems as bs
  | _, _ => false
termination_by structural as => as

def sameEntries : List (Value × Value) → List (Value × Value) → Bool
  | [], [] => true
  | (k, a) :: as, (l, b) :: bs => k.same l && a.same b && sameEntries as bs
  | _, _ => false
termination_by structural as => as

end

instance : Inhabited Value := ⟨.null⟩

instance : BEq Value := ⟨same⟩

def unitless (x : Float) : Value :=
  .number x ""

/-- Only null and false count as false in a condition. -/
def isFalsy : Value → Bool
  | .null | .bool false => true
  | _ => false

def isEmptyMap : Value → Bool
  | .map entries => entries.isEmpty
  | .list items _ => items.isEmpty
  | _ => false

def emptyListAsMap : Value → Value
  | .list [] _ => .map []
  | v => v

def text? : Value → Option String
  | .string text => some text
  | _ => none

def number? : Value → Option (Float × String)
  | .number x unit => some (x, unit)
  | _ => none

def bool? : Value → Option Bool
  | .bool b => some b
  | _ => none

def items? : Value → Option (List Value)
  | .list items _ => some items
  | _ => none

def entries? : Value → Option (List (Value × Value))
  | .map entries => some entries
  | _ => none

end Value

end StyleValues
