import Mathlib.Data.List.Forall2
import Mathlib.Data.List.Induction
import StyleValues.KeyedMap.WellFormed

/-! What is found in a table, what insertion brings in, tables with all values mapped, and tables
laid over one another. -/

namespace StyleValues

theorem eraseDups_concat (names : List String) (name : String) :
    (names ++ [name]).eraseDups =
      if name ∈ names then names.eraseDups else names.eraseDups ++ [name] := by
  rw [List.eraseDups_append]
  by_cases found : name ∈ names <;> simp [List.removeAll, found, List.eraseDups_cons]

theorem eraseDups_append_eraseDups (names others : List String) :
    (names ++ others.eraseDups).eraseDups = (names ++ others).eraseDups := by
  induction others using List.reverseRecOn with
  | nil => rfl
  | append_singleton others last ih =>
    rw [eraseDups_concat, ← List.append_assoc names, eraseDups_concat, ← ih]
    by_cases found : last ∈ others
    · simp [found]
    · rw [if_neg found, ← List.append_assoc, eraseDups_concat]
      simp only [List.mem_append, List.mem_eraseDups]

theorem findRev?_append (p : α → Bool) (items others : List α) :
    (items ++ others).findRev? p = (others.findRev? p).or (items.findRev? p) := by
  simp only [List.findRev?_eq_find?_reverse, List.reverse_append, List.find?_append]

theorem findRev?_concat (p : α → Bool) (items : List α) (item : α) :
    (items ++ [item]).findRev? p = if p item then some item else items.findRev? p := by
  rw [List.findRev?_eq_find?_reverse, List.findRev?_eq_find?_reverse, List.reverse_append]
  by_cases here : p item <;> simp [here]

theorem findRev?_map (f : α → β) (p : β → Bool) (items : List α) :
    (items.map f).findRev? p = (items.findRev? (p ∘ f)).map f := by
  rw [List.findRev?_eq_find?_reverse, List.findRev?_eq_find?_reverse, ← List.map_reverse,
    List.find?_map]

namespace Table

theorem mem_of_find {key : String} {value : α} {entries : List (String × α)}
    (found : find key entries = some value) : (key, value) ∈ entries := by
  induction entries with
  | nil => simp [find] at found
  | cons entry rest ih =>
    by_cases here : entry.1 = key
    · rw [find, if_pos here] at found
      rw [← here, ← Option.some.inj found]
      exact List.mem_cons_self
    · rw [find, if_neg here] at found
      exact List.mem_cons_of_mem _ (ih found)

theorem find_of_mem {key : String} {value : α} {entries : List (String × α)}
    (distinct : (entries.map Prod.fst).Nodup) (member : (key, value) ∈ entries) :
    find key entries = some value := by
  induction entries with
  | nil => simp at member
  | cons entry rest ih =>
    rw [List.map_cons, List.nodup_cons] at distinct
    rcases List.mem_cons.mp member with same | member
    · rw [find, ← same, if_pos rfl]
    · have other : entry.1 ≠ key := by
        intro same
        exact distinct.1 (List.mem_map.mpr ⟨_, member, same.symm⟩)
      rw [find, if_neg other, ih distinct.2 member]

theorem find_eq_none {key : String} {entries : List (String × α)}
    (absent : key ∉ entries.map Prod.fst) : find key entries = none := by
  cases found : find key entries with
  | none => rfl
  | some value => exact absurd (List.mem_map.mpr ⟨_, mem_of_find found, rfl⟩) absent

theorem exists_of_find {key : String} {value : α} {entries : List (String × α)}
    (found : find key entries = some value) :
    ∃ front behind, entries = front ++ (key, value) :: behind ∧ key ∉ front.map Prod.fst := by
  induction entries with
  | nil => cases found
  | cons entry rest ih =>
    by_cases here : entry.1 = key
    · rw [find, if_pos here] at found
      exact ⟨[], rest, by rw [← here, ← Option.some.inj found]; rfl, List.not_mem_nil⟩
    · rw [find, if_neg here] at found
      obtain ⟨front, behind, same, absent⟩ := ih found
      refine ⟨entry :: front, behind, by rw [same]; rfl, ?_⟩
      exact fun member => (List.mem_cons.mp member).elim (Ne.symm here) absent

theorem find_behind {key : String} {front : List (String × α)}
    (absent : key ∉ front.map Prod.fst) (value : α) (behind : List (String × α)) :
    find key (front ++ (key, value) :: behind) = some value := by
  induction front with
  | nil => rw [List.nil_append, find, if_pos rfl]
  | cons entry rest ih =>
    rw [List.map_cons, List.mem_cons, not_or] at absent
    rw [List.cons_append, find, if_neg (Ne.symm absent.1), ih absent.2]

theorem put_behind {key : String} {front : List (String × α)}
    (absent : key ∉ front.map Prod.fst) (old value : α) (behind : List (String × α)) :
    put key value (front ++ (key, old) :: behind) = front ++ (key, value) :: behind := by
  induction front with
  | nil => rw [List.nil_append, put, if_pos rfl, List.nil_append]
  | cons entry rest ih =>
    rw [List.map_cons, List.mem_cons, not_or] at absent
    rw [List.cons_append, put, if_neg (Ne.symm absent.1), ih absent.2, List.cons_append]

theorem find_rel {R : α → β → Prop} {entries : List (String × α)} {others : List (String × β)}
    (related : List.Forall₂ (fun e f => e.1 = f.1 ∧ R e.2 f.2) entries others) (key : String) :
    Option.Rel R (find key entries) (find key others) := by
  induction related with
  | nil => exact .none
  | @cons e f _ _ first _ ih =>
    by_cases here : e.1 = key
    · rw [find, if_pos here, find, if_pos (first.1 ▸ here)]
      exact .some first.2
    · rw [find, if_neg here, find, if_neg (first.1 ▸ here)]
      exact ih

theorem isSome_get?_iff {t : Table α} {key : String} : (t.get? key).isSome ↔ key ∈ t.keys := by
  obtain ⟨entries⟩ := t
  unfold get? keys
  induction entries with
  | nil => simp [find]
  | cons entry rest ih =>
    by_cases here : entry.1 = key
    · simp [find, here]
    · simp [find, here, Ne.symm here, ih]

theorem mem_of_mem_insertAll {t : Table α} {entries : List (String × α)}
    {entry : String × α} (member : entry ∈ (t.insertAll entries).entries) :
    entry ∈ t.entries ∨ entry ∈ entries := by
  induction entries generalizing t with
  | nil => exact .inl member
  | cons first rest ih =>
    rcases ih (t := t.insert first.1 first.2) member with inserted | later
    · rcases KeyedMap.mem_put inserted with same | there
      · exact .inr (same ▸ List.mem_cons_self)
      · exact .inl there
    · exact .inr (List.mem_cons_of_mem _ later)

theorem mem_of_mem_ofList {entries : List (String × α)} {entry : String × α}
    (member : entry ∈ (ofList entries).entries) : entry ∈ entries :=
  (mem_of_mem_insertAll member).resolve_left List.not_mem_nil

theorem ofList_concat (entries : List (String × α)) (last : String × α) :
    ofList (entries ++ [last]) = (ofList entries).insert last.1 last.2 := by
  rw [ofList, insertAll, List.foldl_append]
  rfl

theorem keys_ofList (entries : List (String × α)) :
    (ofList entries).keys = (entries.map Prod.fst).eraseDups := by
  induction entries using List.reverseRecOn with
  | nil => rfl
  | append_singleton entries last ih =>
    rw [ofList_concat, keys_insert, List.map_append, List.map_singleton, eraseDups_concat, ih]
    simp only [List.mem_eraseDups]

theorem get?_ofList (entries : List (String × α)) (key : String) :
    (ofList entries).get? key =
      (entries.findRev? fun entry => entry.1 == key).map Prod.snd := by
  induction entries using List.reverseRecOn with
  | nil => rfl
  | append_singleton entries last ih =>
    rw [ofList_concat, get?_insert, findRev?_concat, ih]
    by_cases same : last.1 = key
    · simp [same]
    · simp [same, Ne.symm same]

theorem mapped_congr {f g : α → β} {t : Table α}
    (same : ∀ entry ∈ t.entries, f entry.2 = g entry.2) : t.mapped f = t.mapped g := by
  unfold mapped
  congr 1
  apply List.map_congr_left
  intro entry member
  rw [same entry member]

theorem mapped_mapped (f : α → β) (g : β → γ) (t : Table α) :
    (t.mapped f).mapped g = t.mapped (g ∘ f) := by
  simp [mapped]

/-- Distinct keys in one order that find the same make one table. -/
theorem eq_of_get?_eq {t u : Table α} (distinct : t.Distinct) (other : u.Distinct)
    (keys : t.keys = u.keys) (same : ∀ key, t.get? key = u.get? key) : t = u := by
  have listed {t : Table α} (distinct : t.Distinct) :
      t.entries = t.keys.filterMap fun key => (t.get? key).map fun value => (key, value) := by
    rw [Table.keys, List.filterMap_map]
    refine (List.filterMap_some.symm.trans (List.filterMap_congr fun entry member => ?_))
    rw [Function.comp_apply, get?, find_of_mem distinct member, Option.map_some]
  have entries : t.entries = u.entries := by
    rw [listed distinct, listed other, keys]
    simp only [same]
  exact congrArg Table.mk entries

theorem insertAll_append (t : Table α) (entries others : List (String × α)) :
    t.insertAll (entries ++ others) = (t.insertAll entries).insertAll others :=
  List.foldl_append

theorem ofList_append_ofList (entries others : List (String × α)) :
    ofList (entries ++ (ofList others).entries) = ofList (entries ++ others) := by
  apply eq_of_get?_eq (Distinct.ofList _) (Distinct.ofList _)
  · have keys : (ofList others).entries.map Prod.fst = (others.map Prod.fst).eraseDups :=
      keys_ofList others
    rw [keys_ofList, keys_ofList, List.map_append, List.map_append, keys,
      eraseDups_append_eraseDups]
  · intro key
    have last := get?_ofList (ofList others).entries key
    rw [ofList_of_nodup (Distinct.ofList others), get?_ofList] at last
    rw [get?_ofList, get?_ofList, findRev?_append, findRev?_append, Option.map_or, Option.map_or,
      last]

theorem put_of_find {key : String} {value : α} {entries : List (String × α)}
    (found : find key entries = some value) : put key value entries = entries := by
  induction entries with
  | nil => cases found
  | cons entry rest ih =>
    by_cases here : entry.1 = key
    · rw [find, if_pos here] at found
      rw [put, if_pos here, ← here, ← Option.some.inj found]
    · rw [find, if_neg here] at found
      rw [put, if_neg here, ih found]

theorem insertAll_of_get? {t : Table α} {entries : List (String × α)}
    (there : ∀ entry ∈ entries, t.get? entry.1 = some entry.2) : t.insertAll entries = t := by
  induction entries with
  | nil => rfl
  | cons entry rest ih =>
    obtain ⟨first, others⟩ := List.forall_mem_cons.mp there
    have same : t.insert entry.1 entry.2 = t := congrArg Table.mk (put_of_find first)
    rw [insertAll, List.foldl_cons, same, ← insertAll, ih others]

theorem map_replace_of_not_mem {key : String} {entries : List (String × α)}
    (absent : key ∉ entries.map Prod.fst) (value : α) :
    (entries.map fun entry => (entry.1, if entry.1 = key then value else entry.2)) = entries := by
  refine (List.map_congr_left fun entry member => ?_).trans (List.map_id entries)
  rw [if_neg (ne_of_mem_of_not_mem (List.mem_map_of_mem member) absent)]
  rfl

theorem put_of_mem {key : String} {entries : List (String × α)}
    (distinct : (entries.map Prod.fst).Nodup) (found : key ∈ entries.map Prod.fst) (value : α) :
    put key value entries =
      entries.map fun entry => (entry.1, if entry.1 = key then value else entry.2) := by
  induction entries with
  | nil => cases found
  | cons entry rest ih =>
    rw [List.map_cons, List.nodup_cons] at distinct
    by_cases here : entry.1 = key
    · rw [put, if_pos here, List.map_cons, map_replace_of_not_mem (here ▸ distinct.1), if_pos here,
        here]
    · have behind := (List.mem_cons.mp found).resolve_left (Ne.symm here)
      rw [put, if_neg here, List.map_cons, if_neg here, ih distinct.2 behind]

namespace Distinct

variable {t : Table α} (distinct : t.Distinct)

include distinct

theorem ofList_entries : Table.ofList t.entries = t :=
  ofList_of_nodup distinct

theorem insertAll_eq (entries : List (String × α)) :
    t.insertAll entries = Table.ofList (t.entries ++ entries) := by
  rw [Table.ofList, insertAll_append, ← Table.ofList, distinct.ofList_entries]

theorem insertAll_ofList (entries : List (String × α)) :
    t.insertAll (Table.ofList entries).entries = t.insertAll entries := by
  rw [distinct.insertAll_eq, ofList_append_ofList, ← distinct.insertAll_eq]

theorem insertAll_insertAll {u : Table α} (other : u.Distinct) (entries : List (String × α)) :
    (t.insertAll u.entries).insertAll entries = t.insertAll (u.insertAll entries).entries := by
  rw [other.insertAll_eq, distinct.insertAll_ofList, insertAll_append]

theorem insertAll_self : t.insertAll t.entries = t :=
  insertAll_of_get? fun _ member => find_of_mem distinct member

theorem entries_insert (key : String) (value : α) :
    (t.insert key value).entries =
      (t.entries.map fun entry => (entry.1, if entry.1 = key then value else entry.2)) ++
        if t.contains key then [] else [(key, value)] := by
  by_cases found : key ∈ t.keys
  · rw [contains, if_pos (isSome_get?_iff.mpr found), List.append_nil]
    exact put_of_mem distinct found value
  · rw [contains, if_neg (mt isSome_get?_iff.mp found), map_replace_of_not_mem found]
    exact put_of_not_mem found value

theorem entries_insertAll {entries : List (String × α)}
    (others : (entries.map Prod.fst).Nodup) :
    (t.insertAll entries).entries =
      (t.entries.map fun entry => (entry.1, (find entry.1 entries).getD entry.2)) ++
        entries.filter fun entry => !t.contains entry.1 := by
  induction entries generalizing t with
  | nil => simp [Table.insertAll, find]
  | cons entry rest ih =>
    obtain ⟨key, value⟩ := entry
    rw [List.map_cons, List.nodup_cons] at others
    have absent : find key rest = none := find_eq_none others.1
    have behind : rest.filter (fun entry => !(t.insert key value).contains entry.1) =
        rest.filter fun entry => !t.contains entry.1 := by
      refine List.filter_congr fun entry member => ?_
      have other : entry.1 ≠ key := ne_of_mem_of_not_mem (List.mem_map_of_mem member) others.1
      rw [contains, contains, get?_insert, if_neg other]
    rw [Table.insertAll, List.foldl_cons, ← Table.insertAll,
      ih (distinct.insert key value) others.2, behind, distinct.entries_insert, List.map_append,
      List.map_map, List.append_assoc, List.filter_cons]
    congr 1
    · refine List.map_congr_left fun entry _ => ?_
      by_cases here : entry.1 = key
      · simp [find, here, absent]
      · simp [find, here, Ne.symm here]
    · cases t.contains key <;> simp [absent]

end Distinct

end Table

end StyleValues
