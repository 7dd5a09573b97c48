import StyleValues.Value.Kind

/-! Lists and maps that are filled slot by slot. -/

namespace StyleValues

def setAt (items : List α) (index : Nat) (item : α) : Except ValueError (List α) :=
  if index < items.length then pure (items.set index item)
  else throw (.indexOutOfBounds index items.length)

structure ListSlots where
  items : List Value
  separator : Separator := .comma

namespace ListSlots

def empty : ListSlots := { items := [] }

def ofLength (n : Nat) : ListSlots := { items := List.replicate n .null }

def toValue (s : ListSlots) : Value := .list s.items s.separator

def length (s : ListSlots) : Nat := s.items.length

def get? (s : ListSlots) (index : Nat) : Option Value := s.items[index]?

def set (s : ListSlots) (index : Nat) (v : Value) : Except ValueError ListSlots :=
  return { s with items := ← setAt s.items index v }

def push (s : ListSlots) (v : Value) : ListSlots := { s with items := s.items ++ [v] }

def withSeparator (s : ListSlots) (separator : Separator) : ListSlots :=
  { s with separator := separator }

end ListSlots

/-- The keys and the values of a map value, each in a list of their own. Keys may repeat. -/
structure MapSlots where
  keys : List Value
  values : List Value

namespace MapSlots

def empty : MapSlots := ⟨[], []⟩

def ofLength (n : Nat) : MapSlots := ⟨List.replicate n .null, List.replicate n .null⟩

def ofEntries (entries : List (Value × Value)) : MapSlots :=
  ⟨entries.map Prod.fst, entries.map Prod.snd⟩

/-- Keys and values go in pairs as far as there are both. -/
def entries (s : MapSlots) : List (Value × Value) := s.keys.zip s.values

@[simp] theorem entries_ofLength (n : Nat) :
    (ofLength n).entries = List.replicate n (.null, .null) :=
  List.zip_replicate'

@[simp] theorem entries_ofEntries (entries : List (Value × Value)) :
    (ofEntries entries).entries = entries :=
  (List.zip_of_prod rfl rfl).symm

def toValue (s : MapSlots) : Value := .map s.entries

def length (s : MapSlots) : Nat := s.keys.length

def key? (s : MapSlots) (index : Nat) : Option Value := s.keys[index]?

def value? (s : MapSlots) (index : Nat) : Option Value := s.values[index]?

def setKey (s : MapSlots) (index : Nat) (key : Value) : Except ValueError MapSlots :=
  return { s with keys := ← setAt s.keys index key }

def setValue (s : MapSlots) (index : Nat) (v : Value) : Except ValueError MapSlots :=
  return { s with values := ← setAt s.values index v }

def push (s : MapSlots) (key v : Value) : MapSlots := ⟨s.keys ++ [key], s.values ++ [v]⟩

end MapSlots

end StyleValues
