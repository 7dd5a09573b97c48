import StyleValues.Table
import StyleValues.Value.Kind

/-! Maps whose keys are values. A fingerprint addresses an entry, so two values of one kind and one
text are one key. -/

namespace StyleValues

/-- What a keyed map holds under a key: a value, or a keyed map of its own. -/
inductive Stored
  | tagged (value : Value)
  | nested (map : Table (Value × Stored))

/-- Keys with what they hold, under the fingerprints of the keys. -/
abbrev KeyedMap := Table (Value × Stored)

namespace KeyedMap

def empty : KeyedMap := ⟨[]⟩

def pairs (m : KeyedMap) : List (Value × Stored) := m.values

def find? (m : KeyedMap) (key : Value) : Option Stored :=
  (m.get? key.fingerprint).map Prod.snd

def has (m : KeyedMap) (key : Value) : Bool :=
  m.contains key.fingerprint

/-- Writes over both the key and what it holds, if there is one of this fingerprint. -/
def set (m : KeyedMap) (key : Value) (value : Stored) : KeyedMap :=
  m.insert key.fingerprint (key, value)

def delete (m : KeyedMap) (key : Value) : KeyedMap :=
  m.erase key.fingerprint

def remove (m : KeyedMap) (key : Value) : Bool × KeyedMap :=
  (m.has key, m.delete key)

def ofPairs (pairs : List (Value × Stored)) : KeyedMap :=
  pairs.foldl (fun m entry => m.set entry.1 entry.2) empty

def tagEntries (entries : List (Value × Value)) : List (Value × Stored) :=
  entries.map fun entry => (entry.1, .tagged entry.2)

/-- Of repeated keys, the first gives the place, the last the key and the value. -/
def ofEntries (entries : List (Value × Value)) : KeyedMap :=
  ofPairs (tagEntries entries)

theorem ofPairs_eq_ofList (pairs : List (Value × Stored)) :
    ofPairs pairs = Table.ofList (pairs.map fun pair => (pair.1.fingerprint, pair)) := by
  unfold ofPairs Table.ofList Table.insertAll
  rw [List.foldl_map]
  rfl

theorem ofEntries_eq_ofList (entries : List (Value × Value)) :
    ofEntries entries =
      Table.ofList (entries.map fun entry => (entry.1.fingerprint, entry.1, .tagged entry.2)) := by
  rw [ofEntries, ofPairs_eq_ofList, tagEntries, List.map_map]
  rfl

theorem find?_set (m : KeyedMap) (key other : Value) (value : Stored) :
    (m.set key value).find? other =
      if other.fingerprint = key.fingerprint then some value else m.find? other := by
  unfold set find?
  rw [Table.get?_insert]
  split <;> rfl

theorem has_eq_isSome_find? (m : KeyedMap) (key : Value) : m.has key = (m.find? key).isSome := by
  simp [has, find?, Table.contains]

end KeyedMap

namespace Stored

/-! The value form of what a map holds. -/

mutual

def toValue : Stored → Value
  | .tagged v => v
  | .nested m => .map (tableEntries m)
termination_by structural s => s

def tableEntries : Table (Value × Stored) → List (Value × Value)
  | ⟨entries⟩ => valueEntries entries
termination_by structural m => m

def valueEntries : List (String × Value × Stored) → List (Value × Value)
  | [] => []
  | (_, key, s) :: rest => (key, s.toValue) :: valueEntries rest
termination_by structural es => es

end

/-! The text of what a map holds. -/

mutual

def text : Stored → String
  | .tagged v => v.text
  | .nested m => tableText m
termination_by structural s => s

def tableText : Table (Value × Stored) → String
  | ⟨entries⟩ => mapText (pairTexts entries)
termination_by structural m => m

def pairTexts : List (String × Value × Stored) → List (String × String)
  | [] => []
  | (_, key, s) :: rest => (key.text, s.text) :: pairTexts rest
termination_by structural es => es

end

/-! Equality looks at keys and what they hold, in order; a map value never equals a keyed map. -/

mutual

def same : Stored → Stored → Bool
  | .tagged v, .tagged w => v == w
  | .nested m, .nested n => sameTable m n
  | _, _ => false
termination_by structural s => s

def sameTable : Table (Value × Stored) → Table (Value × Stored) → Bool
  | ⟨as⟩, ⟨bs⟩ => samePairs as bs
termination_by structural m => m

def samePairs : List (String × Value × Stored) → List (String × Value × Stored) → Bool
  | [], [] => true
  | (_, k, a) :: as, (_, l, b) :: bs => k == l && a.same b && samePairs as bs
  | _, _ => false
termination_by structural as => as

end

instance : Inhabited Stored := ⟨.tagged .null⟩

instance : BEq Stored := ⟨same⟩

def kind : Stored → Kind
  | .tagged v => v.kind
  | .nested _ => .map

def keyedMap? : Stored → Option KeyedMap
  | .nested m => some m
  | .tagged (.map entries) => some (.ofEntries entries)
  | .tagged _ => none

def pairs? : Stored → Option (List (Value × Stored))
  | .nested m => some (KeyedMap.pairs m)
  | .tagged (.map entries) => some (KeyedMap.tagEntries entries)
  | .tagged _ => none

end Stored

namespace KeyedMap

def toEntries (m : KeyedMap) : List (Value × Value) := Stored.tableEntries m

def toValue (m : KeyedMap) : Value := .map m.toEntries

def text (m : KeyedMap) : String := Stored.tableText m

def same (m n : KeyedMap) : Bool := Stored.sameTable m n

end KeyedMap

end StyleValues
