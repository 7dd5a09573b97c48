import Mathlib.Data.List.DropRight
import StyleValues.Proofs.KeyedMap.Lookup

/-! Keyed maps told from the edits that led to them. What stands under a fingerprint, and where, is
decided by the edits since it was last removed: the first set gives the place, the last one the key
and what it holds. -/

namespace StyleValues.KeyedMap

inductive Edit
  | set (key : Value) (s : Stored)
  | delete (key : Value)
  | clear

namespace Edit

def apply (m : KeyedMap) : Edit → KeyedMap
  | .set key s => m.set key s
  | .delete key => m.delete key
  | .clear => .empty

def pair? (fingerprint : String) : Edit → Option (Value × Stored)
  | .set key s => if key.fingerprint = fingerprint then some (key, s) else none
  | .delete _ | .clear => none

def removes (fingerprint : String) : Edit → Bool
  | .set .. => false
  | .delete key => key.fingerprint = fingerprint
  | .clear => true

end Edit

def afterEdits (edits : List Edit) : KeyedMap :=
  edits.foldl Edit.apply .empty

/-- The sets under a fingerprint since it was last removed, each with its position. -/
def writes (fingerprint : String) (edits : List Edit) : List (Nat × Value × Stored) :=
  (edits.zipIdx.rtakeWhile fun edit => !edit.1.removes fingerprint).filterMap fun edit =>
    (edit.1.pair? fingerprint).map fun pair => (edit.2, pair)

def lastWrite? (fingerprint : String) (edits : List Edit) : Option (Value × Stored) :=
  (writes fingerprint edits).getLast?.map Prod.snd

/-- The position of the first set since the last removal. -/
def entered? (fingerprint : String) (edits : List Edit) : Option Nat :=
  (writes fingerprint edits).head?.map Prod.fst

theorem writes_concat (fingerprint : String) (edits : List Edit) (edit : Edit) :
    writes fingerprint (edits ++ [edit]) =
      if edit.removes fingerprint then []
      else writes fingerprint edits ++
        ((edit.pair? fingerprint).map fun pair => (edits.length, pair)).toList := by
  unfold writes
  rw [List.zipIdx_append, List.zipIdx_singleton, List.rtakeWhile_concat]
  by_cases removed : edit.removes fingerprint
  · simp [removed]
  · cases entry : edit.pair? fingerprint <;> simp [removed, entry]

theorem lastWrite?_concat (fingerprint : String) (edits : List Edit) (edit : Edit) :
    lastWrite? fingerprint (edits ++ [edit]) =
      if edit.removes fingerprint then none
      else (edit.pair? fingerprint).or (lastWrite? fingerprint edits) := by
  unfold lastWrite?
  rw [writes_concat]
  by_cases removed : edit.removes fingerprint
  · simp [removed]
  · cases edit.pair? fingerprint <;> simp [removed]

theorem entered?_concat (fingerprint : String) (edits : List Edit) (edit : Edit) :
    entered? fingerprint (edits ++ [edit]) =
      if edit.removes fingerprint then none
      else (entered? fingerprint edits).or
        ((edit.pair? fingerprint).map fun _ => edits.length) := by
  unfold entered?
  rw [writes_concat]
  by_cases removed : edit.removes fingerprint
  · simp [removed]
  · cases edit.pair? fingerprint <;> cases writes fingerprint edits <;> simp [removed]

theorem isSome_entered? (fingerprint : String) (edits : List Edit) :
    (entered? fingerprint edits).isSome = (lastWrite? fingerprint edits).isSome := by
  unfold entered? lastWrite?
  cases writes fingerprint edits <;> simp

theorem lt_of_entered? {fingerprint : String} {edits : List Edit} {i : Nat}
    (entered : entered? fingerprint edits = some i) : i < edits.length := by
  induction edits using List.reverseRecOn with
  | nil => cases entered
  | append_singleton edits edit ih =>
    rw [entered?_concat] at entered
    rw [List.length_append, List.length_singleton]
    split at entered
    next => cases entered
    next =>
      rcases Option.or_eq_some_iff.mp entered with before | ⟨-, now⟩
      · have := ih before
        omega
      · obtain ⟨_, -, rfl⟩ := Option.map_eq_some_iff.mp now
        omega

theorem entered?_set_of_some {fingerprint : String} {edits : List Edit} {i : Nat}
    (entered : entered? fingerprint edits = some i) {key : Value} {s : Stored} :
    entered? fingerprint (edits ++ [.set key s]) = some i := by
  rw [entered?_concat, entered]
  rfl

theorem entered?_set_of_none {edits : List Edit} {key : Value} {s : Stored}
    (absent : entered? key.fingerprint edits = none) :
    entered? key.fingerprint (edits ++ [.set key s]) = some edits.length := by
  rw [entered?_concat, absent]
  simp [Edit.removes, Edit.pair?]

theorem entered?_delete_of_ne {fingerprint : String} (edits : List Edit) {key : Value}
    (other : fingerprint ≠ key.fingerprint) :
    entered? fingerprint (edits ++ [.delete key]) = entered? fingerprint edits := by
  rw [entered?_concat]
  simp [Edit.removes, Edit.pair?, Ne.symm other]

/-- The entries of a map are those that the edits left, in the order in which they came in. -/
structure Recalls (m : KeyedMap) (edits : List Edit) : Prop where
  keyed : m.Keyed
  get?_eq : ∀ fingerprint, m.get? fingerprint = lastWrite? fingerprint edits
  ordered : m.keys.Pairwise fun f g =>
    ∃ i j, entered? f edits = some i ∧ entered? g edits = some j ∧ i < j

namespace Recalls

variable {m : KeyedMap} {edits : List Edit}

theorem mem_keys_iff (recalls : m.Recalls edits) (fingerprint : String) :
    fingerprint ∈ m.keys ↔ ∃ i, entered? fingerprint edits = some i := by
  rw [← Option.isSome_iff_exists, isSome_entered?, ← recalls.get?_eq, Table.isSome_get?_iff]

theorem set (recalls : m.Recalls edits) (key : Value) (s : Stored) :
    (m.set key s).Recalls (edits ++ [.set key s]) where
  keyed := recalls.keyed.set key s
  get?_eq fingerprint := by
    rw [KeyedMap.set, Table.get?_insert, recalls.get?_eq, lastWrite?_concat]
    by_cases here : fingerprint = key.fingerprint
    · simp [Edit.removes, Edit.pair?, here]
    · simp [Edit.removes, Edit.pair?, here, Ne.symm here]
  ordered := by
    have stay : m.keys.Pairwise fun f g => ∃ i j, entered? f (edits ++ [.set key s]) = some i ∧
        entered? g (edits ++ [.set key s]) = some j ∧ i < j := by
      apply recalls.ordered.imp
      rintro f g ⟨i, j, first, second, less⟩
      exact ⟨i, j, entered?_set_of_some first, entered?_set_of_some second, less⟩
    rw [KeyedMap.set, Table.keys_insert]
    split
    next => exact stay
    next absent =>
      refine List.pairwise_append.mpr ⟨stay, List.pairwise_singleton _ _, ?_⟩
      intro f found g last
      rw [List.mem_singleton.mp last]
      obtain ⟨i, entered⟩ := (recalls.mem_keys_iff f).mp found
      refine ⟨i, edits.length, entered?_set_of_some entered, ?_, lt_of_entered? entered⟩
      apply entered?_set_of_none
      rw [Option.eq_none_iff_forall_ne_some]
      exact fun j there => absent ((recalls.mem_keys_iff _).mpr ⟨j, there⟩)

theorem delete (recalls : m.Recalls edits) (key : Value) :
    (m.delete key).Recalls (edits ++ [.delete key]) where
  keyed := recalls.keyed.delete key
  get?_eq fingerprint := by
    rw [KeyedMap.delete, Table.get?_erase, recalls.get?_eq, lastWrite?_concat]
    by_cases here : fingerprint = key.fingerprint
    · simp [Edit.removes, here]
    · simp [Edit.removes, Edit.pair?, here, Ne.symm here]
  ordered := by
    rw [KeyedMap.delete, Table.keys_erase]
    apply (recalls.ordered.filter _).imp_of_mem
    rintro f g foundF foundG ⟨i, j, first, second, less⟩
    have otherF : f ≠ key.fingerprint := by simpa using (List.mem_filter.mp foundF).2
    have otherG : g ≠ key.fingerprint := by simpa using (List.mem_filter.mp foundG).2
    rw [entered?_delete_of_ne edits otherF, entered?_delete_of_ne edits otherG]
    exact ⟨i, j, first, second, less⟩

theorem clear (edits : List Edit) : KeyedMap.empty.Recalls (edits ++ [.clear]) where
  keyed := Keyed.empty
  get?_eq fingerprint := by
    rw [lastWrite?_concat]
    rfl
  ordered := List.Pairwise.nil

end Recalls

theorem afterEdits_concat (edits : List Edit) (edit : Edit) :
    afterEdits (edits ++ [edit]) = edit.apply (afterEdits edits) :=
  List.foldl_concat ..

theorem recalls_afterEdits (edits : List Edit) : (afterEdits edits).Recalls edits := by
  induction edits using List.reverseRecOn with
  | nil => exact ⟨Keyed.empty, fun _ => rfl, List.Pairwise.nil⟩
  | append_singleton edits edit ih =>
    rw [afterEdits_concat]
    cases edit with
    | set key s => exact ih.set key s
    | delete key => exact ih.delete key
    | clear => exact Recalls.clear edits

/-- After edits of an empty map, a key finds what was last set under its fingerprint since that was
last removed; a delete answers whether there is such a set; and the entries are those of the
fingerprints that have one, in the order of the first of these sets. -/
theorem afterEdits_eq_history (edits : List Edit) :
    (∀ key, (afterEdits edits).find? key =
      (lastWrite? key.fingerprint edits).map Prod.snd) ∧
    (∀ key, (afterEdits edits).remove key =
      ((lastWrite? key.fingerprint edits).isSome, afterEdits (edits ++ [.delete key]))) ∧
    (∀ pair, pair ∈ (afterEdits edits).pairs ↔
      lastWrite? pair.1.fingerprint edits = some pair) ∧
    (afterEdits edits).pairs.Pairwise fun a b => ∃ i j,
      entered? a.1.fingerprint edits = some i ∧ entered? b.1.fingerprint edits = some j ∧
        i < j := by
  have recalls := recalls_afterEdits edits
  refine ⟨fun key => ?_, fun key => ?_, fun pair => ?_, ?_⟩
  · rw [find?, recalls.get?_eq]
  · rw [remove, has, Table.contains, recalls.get?_eq, afterEdits_concat]
    rfl
  · rw [← recalls.get?_eq, recalls.keyed.get?_eq_some_iff]
    exact (and_iff_left rfl).symm
  · have ordered := recalls.ordered
    rwa [recalls.keyed.keys_eq, fingerprints, List.pairwise_map] at ordered

example (a b : Stored) :
    (afterEdits [.set (.string "x") a, .set (.string "y") a, .set (.string "z") a,
      .set (.string "x") b, .delete (.string "y"), .set (.string "y") b]).pairs =
      [(.string "x", b), (.string "z", a), (.string "y", b)] := rfl

end StyleValues.KeyedMap
