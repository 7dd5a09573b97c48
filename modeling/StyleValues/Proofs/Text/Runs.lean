import Mathlib.Data.List.TakeWhile
import StyleValues.Text.Blank

/-! Where a run of characters at the start of a text ends, and texts with no blanks at their ends,
which trimming leaves as they are. -/

namespace StyleValues.Text

theorem takeWhile_append {p : Char → Bool} {run tail : List Char} (all : ∀ c ∈ run, p c)
    (stops : ∀ c ∈ tail.head?, p c = false) :
    (run ++ tail).takeWhile p = run ∧ (run ++ tail).dropWhile p = tail := by
  rw [List.takeWhile_append_of_pos all, List.dropWhile_append_of_pos all]
  cases tail with
  | nil => simp
  | cons c tail => simp [stops c rfl]

theorem takeWhile_eq_nil {p : Char → Bool} {cs : List Char} (stops : ∀ c ∈ cs.head?, p c = false) :
    cs.takeWhile p = [] ∧ cs.dropWhile p = cs :=
  takeWhile_append (List.forall_mem_nil _) stops

structure Tight (cs : List Char) : Prop where
  first : ∀ c ∈ cs.head?, isBlank c = false
  last : ∀ c ∈ cs.getLast?, isBlank c = false

instance (cs : List Char) : Decidable (Tight cs) :=
  decidable_of_iff (cs.head?.any isBlank = false ∧ cs.getLast?.any isBlank = false) (by
    rw [Option.any_eq_false, Option.any_eq_false]
    exact ⟨fun ends => ⟨ends.1, ends.2⟩, fun tight => ⟨tight.first, tight.last⟩⟩)

theorem dropWhile_reverse_eq_self {cs : List Char} (last : ∀ c ∈ cs.getLast?, isBlank c = false) :
    cs.reverse.dropWhile isBlank = cs.reverse :=
  (takeWhile_eq_nil (by rwa [List.head?_reverse])).2

theorem tight_of_forall {cs : List Char} (all : ∀ c ∈ cs, isBlank c = false) : Tight cs where
  first c first := all c (List.mem_of_mem_head? first)
  last c last := all c (List.mem_of_mem_getLast? last)

namespace Tight

variable {cs rest : List Char}

theorem trimmed_eq (tight : Tight cs) : trimmed cs = cs := by
  rw [trimmed, (takeWhile_eq_nil tight.first).2, dropWhile_reverse_eq_self tight.last,
    List.reverse_reverse]

theorem first_append (tight : Tight cs) (some : cs ≠ []) (rest : List Char) :
    ∀ c ∈ (cs ++ rest).head?, isBlank c = false := by
  obtain ⟨c, after, rfl⟩ := List.exists_cons_of_ne_nil some
  exact tight.first

theorem append (tight : Tight cs) (some : cs ≠ []) (behind : Tight rest) : Tight (cs ++ rest) where
  first := tight.first_append some rest
  last := by
    intro c last
    rw [List.getLast?_append] at last
    rcases Option.or_eq_some_iff.mp last with last | ⟨-, last⟩
    · exact behind.last c last
    · exact tight.last c last

theorem trimmed_append (tight : Tight cs) (some : cs ≠ []) (rest : List Char) :
    trimmed (cs ++ rest) = cs ++ (rest.reverse.dropWhile isBlank).reverse := by
  rw [trimmed, (takeWhile_eq_nil (tight.first_append some rest)).2, List.reverse_append,
    List.dropWhile_append, dropWhile_reverse_eq_self tight.last]
  split
  next blank =>
    rw [List.isEmpty_iff.mp blank, List.reverse_reverse, List.reverse_nil, List.append_nil]
  next => rw [List.reverse_append, List.reverse_reverse]

end Tight

end StyleValues.Text
