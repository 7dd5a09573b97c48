/-! Tables: maps from texts that keep their entries in the order in which the keys first came in. To
insert under a key that is there writes over the value in its place, and to erase a key moves no
other. That is said by `keys_insert`, `get?_insert`, `keys_erase` and `get?_erase`, and nothing else
is relied on: while its keys are distinct, the keys and what they find are the whole table. -/

namespace StyleValues

structure Table (α : Type) where
  entries : List (String × α)

namespace Table

def empty : Table α := ⟨[]⟩

def size (t : Table α) : Nat := t.entries.length

def keys (t : Table α) : List String := t.entries.map Prod.fst

def values (t : Table α) : List α := t.entries.map Prod.snd

def Distinct (t : Table α) : Prop := t.keys.Nodup

def find (key : String) : List (String × α) → Option α
  | [] => none
  | entry :: rest => if entry.1 = key then some entry.2 else find key rest

def get? (t : Table α) (key : String) : Option α := find key t.entries

def contains (t : Table α) (key : String) : Bool := (t.get? key).isSome

def put (key : String) (value : α) : List (String × α) → List (String × α)
  | [] => [(key, value)]
  | entry :: rest =>
      if entry.1 = key then (key, value) :: rest else entry :: put key value rest

/-- A key that is already there keeps its place. -/
def insert (t : Table α) (key : String) (value : α) : Table α := ⟨put key value t.entries⟩

def erase (t : Table α) (key : String) : Table α := ⟨t.entries.filter (·.1 != key)⟩

def insertAll (t : Table α) (entries : List (String × α)) : Table α :=
  entries.foldl (fun t entry => t.insert entry.1 entry.2) t

/-- Of entries under one key, the first gives the place and the last the value. -/
def ofList (entries : List (String × α)) : Table α := empty.insertAll entries

theorem keys_put (key : String) (value : α) (entries : List (String × α)) :
    (put key value entries).map Prod.fst =
      if key ∈ entries.map Prod.fst then entries.map Prod.fst
      else entries.map Prod.fst ++ [key] := by
  induction entries with
  | nil => simp [put]
  | cons entry rest ih =>
    by_cases same : entry.1 = key
    · simp [put, same]
    · rw [put, if_neg same, List.map_cons, ih]
      by_cases found : key ∈ rest.map Prod.fst <;> simp [found, Ne.symm same]

theorem keys_insert (t : Table α) (key : String) (value : α) :
    (t.insert key value).keys = if key ∈ t.keys then t.keys else t.keys ++ [key] :=
  keys_put key value t.entries

theorem keys_erase (t : Table α) (key : String) :
    (t.erase key).keys = t.keys.filter (· != key) := by
  simp [keys, erase, List.filter_map, Function.comp_def]

theorem distinct_empty : (empty : Table α).Distinct := List.nodup_nil

section

variable {t : Table α} (distinct : t.Distinct)

include distinct

theorem Distinct.insert (key : String) (value : α) :
    (t.insert key value).Distinct := by
  unfold Distinct at *
  rw [keys_insert]
  split
  · exact distinct
  · rename_i absent
    refine List.nodup_append.mpr ⟨distinct, by simp, fun k found l here => ?_⟩
    rw [List.mem_singleton.mp here]
    exact fun same => absent (same ▸ found)

theorem Distinct.erase (key : String) :
    (t.erase key).Distinct := by
  unfold Distinct at *
  rw [keys_erase]
  exact distinct.filter _

theorem Distinct.insertAll (entries : List (String × α)) :
    (t.insertAll entries).Distinct := by
  induction entries generalizing t with
  | nil => exact distinct
  | cons entry rest ih => exact ih (distinct.insert entry.1 entry.2)

end

theorem Distinct.ofList (entries : List (String × α)) : (Table.ofList entries).Distinct :=
  distinct_empty.insertAll entries

theorem put_of_not_mem {key : String} {entries : List (String × α)}
    (absent : key ∉ entries.map Prod.fst) (value : α) :
    put key value entries = entries ++ [(key, value)] := by
  induction entries with
  | nil => rfl
  | cons entry rest ih =>
    simp only [List.map_cons, List.mem_cons, not_or] at absent
    rw [put, if_neg (Ne.symm absent.1), ih absent.2]
    rfl

theorem insertAll_of_nodup (t : Table α) {entries : List (String × α)}
    (distinct : ((t.entries ++ entries).map Prod.fst).Nodup) :
    t.insertAll entries = ⟨t.entries ++ entries⟩ := by
  induction entries generalizing t with
  | nil => simp [insertAll]
  | cons entry rest ih =>
    have absent : entry.1 ∉ t.entries.map Prod.fst := by
      simp only [List.map_append, List.map_cons, List.nodup_append] at distinct
      exact fun found => distinct.2.2 _ found _ (by simp) rfl
    have same : t.insert entry.1 entry.2 = ⟨t.entries ++ [entry]⟩ := by
      rw [insert, put_of_not_mem absent]
    rw [insertAll, List.foldl_cons, same, ← insertAll, ih _ (by simpa using distinct)]
    simp

/-- Entries of distinct keys are a table as they stand. -/
theorem ofList_of_nodup {entries : List (String × α)}
    (distinct : (entries.map Prod.fst).Nodup) : ofList entries = ⟨entries⟩ :=
  insertAll_of_nodup empty distinct

theorem find_put (key other : String) (value : α) (entries : List (String × α)) :
    find other (put key value entries) =
      if other = key then some value else find other entries := by
  induction entries with
  | nil => grind [put, find]
  | cons entry rest ih => grind [put, find]

theorem find_filter_ne (key other : String) (entries : List (String × α)) :
    find other (entries.filter (·.1 != key)) =
      if other = key then none else find other entries := by
  induction entries with
  | nil => simp [find]
  | cons entry rest ih =>
    by_cases here : entry.1 = key <;> grind [find]

/-- A key finds the value last inserted under it; the others find what they found before. -/
@[simp] theorem get?_insert (t : Table α) (key other : String) (value : α) :
    (t.insert key value).get? other = if other = key then some value else t.get? other :=
  find_put key other value t.entries

@[simp] theorem get?_erase (t : Table α) (key other : String) :
    (t.erase key).get? other = if other = key then none else t.get? other :=
  find_filter_ne key other t.entries

def mapped (f : α → β) (t : Table α) : Table β :=
  ⟨t.entries.map fun entry => (entry.1, f entry.2)⟩

theorem values_mapped (f : α → β) (t : Table α) : (t.mapped f).values = t.values.map f := by
  simp [mapped, values]

theorem mapped_insert (f : α → β) (t : Table α) (key : String) (value : α) :
    (t.insert key value).mapped f = (t.mapped f).insert key (f value) := by
  obtain ⟨entries⟩ := t
  unfold insert mapped
  congr 1
  induction entries with
  | nil => rfl
  | cons entry rest ih =>
    by_cases same : entry.1 = key
    · simp [put, same]
    · simpa [put, same] using ih

theorem mapped_insertAll (f : α → β) (t : Table α) (entries : List (String × α)) :
    (t.insertAll entries).mapped f =
      (t.mapped f).insertAll (entries.map fun entry => (entry.1, f entry.2)) := by
  induction entries generalizing t with
  | nil => rfl
  | cons entry rest ih =>
    rw [List.map_cons, insertAll, List.foldl_cons, ← insertAll, ih, mapped_insert]
    rfl

theorem mapped_ofList (f : α → β) (entries : List (String × α)) :
    (ofList entries).mapped f = ofList (entries.map fun entry => (entry.1, f entry.2)) :=
  mapped_insertAll f empty entries

end Table

end StyleValues
