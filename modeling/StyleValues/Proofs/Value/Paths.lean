import Mathlib.Tactic.ByContra
import StyleValues.Value.Kind

/-! What is reached through maps along a path of keys. Keys are compared by fingerprint, and of
repeated keys the last counts. -/

namespace StyleValues

theorem mem_of_findRev? {p : α → Bool} {items : List α} {item : α}
    (found : items.findRev? p = some item) : item ∈ items := by
  rw [List.findRev?_eq_find?_reverse] at found
  exact List.mem_reverse.mp (List.mem_of_find?_eq_some found)

namespace Value

def keyFingerprints (entries : List (Value × Value)) : List String :=
  entries.map fun entry => entry.1.fingerprint

def lastUnder? (entries : List (Value × Value)) (fingerprint : String) : Option (Value × Value) :=
  entries.findRev? fun entry => entry.1.fingerprint == fingerprint

/-- One entry for each fingerprint, in the order in which they first occur. -/
def uniqueEntries (entries : List (Value × Value)) : List (Value × Value) :=
  (keyFingerprints entries).eraseDups.filterMap (lastUnder? entries)

def child? : Value → Value → Option Value
  | .map entries, key => (lastUnder? entries key.fingerprint).map Prod.snd
  | _, _ => none

def follow? (v : Value) : List Value → Option Value
  | [] => some v
  | key :: path => (v.child? key).bind fun inner => inner.follow? path

/-- No map reached through maps has two keys of one fingerprint. -/
def DistinctKeys (v : Value) : Prop :=
  ∀ path entries, v.follow? path = some (.map entries) → (keyFingerprints entries).Nodup

/-- A part of the path, short of all of it, leads to what is no map. -/
def StopsBefore (v : Value) (path : List Value) : Prop :=
  ∃ front, front <+: path ∧ front ≠ path ∧
    ∃ inner, v.follow? front = some inner ∧ inner.kind ≠ .map

@[simp] theorem follow?_nil (v : Value) : v.follow? [] = some v := rfl

theorem follow?_cons (v key : Value) (path : List Value) :
    v.follow? (key :: path) = (v.child? key).bind fun inner => inner.follow? path := rfl

theorem child?_eq_none {v : Value} (scalar : v.kind ≠ .map) (key : Value) :
    v.child? key = none := by
  cases v with
  | map entries => exact absurd rfl scalar
  | _ => rfl

theorem follow?_cons_eq_none {v : Value} (scalar : v.kind ≠ .map) (key : Value)
    (path : List Value) : v.follow? (key :: path) = none := by
  rw [follow?_cons, child?_eq_none scalar]
  rfl

theorem kind_eq_map_of_follow? {v : Value} {path : List Value} {entries : List (Value × Value)}
    (reached : v.follow? path = some (.map entries)) : v.kind = .map := by
  by_contra scalar
  cases path with
  | nil =>
    rw [follow?_nil, Option.some.injEq] at reached
    exact scalar (reached ▸ rfl)
  | cons key path =>
    rw [follow?_cons_eq_none scalar] at reached
    cases reached

theorem DistinctKeys.nodup {entries : List (Value × Value)}
    (distinct : (Value.map entries).DistinctKeys) : (keyFingerprints entries).Nodup :=
  distinct [] entries rfl

theorem DistinctKeys.child {v key inner : Value} (distinct : v.DistinctKeys)
    (found : v.child? key = some inner) : inner.DistinctKeys := by
  intro path entries reached
  apply distinct (key :: path) entries
  rw [follow?_cons, found]
  exact reached

theorem distinctKeys_of_scalar {v : Value} (scalar : v.kind ≠ .map) : v.DistinctKeys := by
  intro path entries reached
  exact absurd (kind_eq_map_of_follow? reached) scalar

theorem distinctKeys_map {entries : List (Value × Value)} (nodup : (keyFingerprints entries).Nodup)
    (inner : ∀ entry ∈ entries, entry.2.DistinctKeys) : (Value.map entries).DistinctKeys := by
  intro path below reached
  cases path with
  | nil =>
    rw [follow?_nil, Option.some.injEq, Value.map.injEq] at reached
    exact reached ▸ nodup
  | cons key path =>
    rw [follow?_cons] at reached
    obtain ⟨v, found, reached⟩ := Option.bind_eq_some_iff.mp reached
    obtain ⟨entry, counts, rfl⟩ := Option.map_eq_some_iff.mp found
    exact inner entry (mem_of_findRev? counts) path below reached

theorem StopsBefore.child {v key inner : Value} {path : List Value}
    (found : v.child? key = some inner) (stops : inner.StopsBefore path) :
    v.StopsBefore (key :: path) := by
  obtain ⟨front, isFront, short, reached⟩ := stops
  refine ⟨key :: front, List.cons_prefix_cons.mpr ⟨rfl, isFront⟩, ?_, ?_⟩
  · exact fun same => short (List.cons.inj same).2
  · rw [follow?_cons, found]
    exact reached

theorem StopsBefore.exists_child {v key : Value} {path : List Value} (isMap : v.kind = .map)
    (stops : v.StopsBefore (key :: path)) :
    ∃ inner, v.child? key = some inner ∧ inner.StopsBefore path := by
  obtain ⟨front, isFront, short, last, reached, scalar⟩ := stops
  cases front with
  | nil =>
    rw [follow?_nil, Option.some.injEq] at reached
    exact absurd (reached ▸ isMap) scalar
  | cons first front =>
    obtain ⟨rfl, inFront⟩ := List.cons_prefix_cons.mp isFront
    rw [follow?_cons] at reached
    obtain ⟨inner, found, reached⟩ := Option.bind_eq_some_iff.mp reached
    exact ⟨inner, found, front, inFront, fun same => short (same ▸ rfl), last, reached, scalar⟩

theorem stopsBefore_cons_of_scalar {v : Value} (scalar : v.kind ≠ .map) (key : Value)
    (path : List Value) : v.StopsBefore (key :: path) :=
  ⟨[], List.nil_prefix, nofun, v, rfl, scalar⟩

end Value

end StyleValues
