import StyleValues.KeyedMap.Basic

/-! Merging entries into a keyed map, flat or through nested maps. -/

namespace StyleValues

/-- Decides what a key holds that is already there: gets the key, what comes in and what is held. -/
abbrev Resolver (M : Type → Type) := Value → Stored → Stored → M Stored

def keepNew : Resolver Id := fun _ new _ => new

namespace Stored

/-! The number of entries in maps below a value, each counted with what it holds. -/

mutual

def valueWeight : Value → Nat
  | .map entries => entriesWeight entries + 1
  | _ => 0
termination_by structural v => v

def entriesWeight : List (Value × Value) → Nat
  | [] => 0
  | (_, v) :: rest => valueWeight v + 1 + entriesWeight rest
termination_by structural es => es

end

mutual

def weight : Stored → Nat
  | .tagged v => valueWeight v
  | .nested m => tableWeight m + 1
termination_by structural s => s

def tableWeight : Table (Value × Stored) → Nat
  | ⟨entries⟩ => storedWeight entries
termination_by structural m => m

def storedWeight : List (String × Value × Stored) → Nat
  | [] => 0
  | (_, _, s) :: rest => s.weight + 1 + storedWeight rest
termination_by structural es => es

end

end Stored

namespace KeyedMap

def pairsWeight : List (Value × Stored) → Nat
  | [] => 0
  | (_, s) :: rest => s.weight + 1 + pairsWeight rest

theorem pairsWeight_pairs (m : KeyedMap) : pairsWeight m.pairs = Stored.tableWeight m := by
  obtain ⟨entries⟩ := m
  simp only [pairs, Table.values, Stored.tableWeight]
  induction entries with
  | nil => rfl
  | cons entry rest ih => simp [pairsWeight, Stored.storedWeight, ih]

theorem pairsWeight_tagEntries (entries : List (Value × Value)) :
    pairsWeight (tagEntries entries) = Stored.entriesWeight entries := by
  induction entries with
  | nil => rfl
  | cons entry rest ih =>
    rw [tagEntries] at *
    simp [pairsWeight, Stored.entriesWeight, Stored.weight, ih]

/-- The entries of a map weigh less than the map. -/
theorem pairsWeight_lt_of_pairs? {s : Stored} {pairs : List (Value × Stored)}
    (h : s.pairs? = some pairs) : pairsWeight pairs < s.weight := by
  match s with
  | .nested m =>
    simp only [Stored.pairs?, Option.some.injEq] at h
    simp [← h, pairsWeight_pairs, Stored.weight]
  | .tagged (.map entries) =>
    simp only [Stored.pairs?, Option.some.injEq] at h
    simp [← h, pairsWeight_tagEntries, Stored.weight, Stored.valueWeight]

variable {M : Type → Type} [Monad M]

/-- Sets each entry in turn. The resolver sees the map as it is at that moment. -/
def mergeFlat (resolve : Resolver M) (m : KeyedMap) : List (Value × Stored) → M KeyedMap
  | [] => pure m
  | (key, new) :: rest =>
      (match m.find? key with
        | none => pure new
        | some old => resolve key new old) >>= fun value =>
      mergeFlat resolve (m.set key value) rest

/-- Where a map comes in for a map, its entries are merged into a copy of the one that is there, and
the resolver is asked about those. In all else this is the flat merge. -/
def mergeDeep (resolve : Resolver M) (m : KeyedMap) : List (Value × Stored) → M KeyedMap
  | [] => pure m
  | (key, new) :: rest =>
      (match m.find? key with
        | none => pure new
        | some old =>
            match old.keyedMap?, _ : new.pairs? with
            | some held, some pairs => .nested <$> mergeDeep resolve held pairs
            | _, _ => resolve key new old) >>= fun value =>
      mergeDeep resolve (m.set key value) rest
termination_by pairs => pairsWeight pairs
decreasing_by
  · have := pairsWeight_lt_of_pairs? ‹new.pairs? = some _›
    simp only [pairsWeight]
    omega
  · simp only [pairsWeight]
    omega

def update (m : KeyedMap) (pairs : List (Value × Stored)) : KeyedMap :=
  mergeFlat keepNew m pairs

def deepUpdate (m : KeyedMap) (pairs : List (Value × Stored)) : KeyedMap :=
  mergeDeep keepNew m pairs

end KeyedMap

end StyleValues
