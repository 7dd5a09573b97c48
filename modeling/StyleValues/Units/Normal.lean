import StyleValues.Units.Basic

/-! Units with common symbols cancelled and each side sorted. -/

namespace StyleValues.Units

/-- Symbols are sorted by code point, and none is on both sides. -/
structure Normal (u : Units) : Prop where
  numerator_sorted : u.numerator.Pairwise (· ≤ ·)
  denominator_sorted : u.denominator.Pairwise (· ≤ ·)
  disjoint : ∀ symbol ∈ u.numerator, symbol ∉ u.denominator

/-- Takes away one occurrence on each side for every common symbol. -/
def cancel : List String → List String → List String × List String
  | [], below => ([], below)
  | symbol :: above, below =>
      if symbol ∈ below then cancel above (below.erase symbol)
      else
        let rest := cancel above below
        (symbol :: rest.1, rest.2)

def sorted (symbols : List String) : List String :=
  symbols.mergeSort fun a b => decide (a ≤ b)

def normalized (u : Units) : Units :=
  let rest := cancel u.numerator u.denominator
  ⟨sorted rest.1, sorted rest.2⟩

theorem count_cancel_fst (symbol : String) (above below : List String) :
    (cancel above below).1.count symbol = above.count symbol - below.count symbol := by
  induction above generalizing below with
  | nil => simp [cancel]
  | cons first above ih =>
    by_cases common : first ∈ below
    · have := List.count_pos_iff.mpr common
      by_cases same : first = symbol
      · subst same
        simp [cancel, common, ih]
        omega
      · simp [cancel, common, ih, List.count_erase, same]
    · have := List.count_eq_zero.mpr common
      by_cases same : first = symbol
      · subst same
        simp [cancel, common, ih]
        omega
      · simp [cancel, common, ih, same]

theorem count_cancel_snd (symbol : String) (above below : List String) :
    (cancel above below).2.count symbol = below.count symbol - above.count symbol := by
  induction above generalizing below with
  | nil => simp [cancel]
  | cons first above ih =>
    by_cases common : first ∈ below
    · by_cases same : first = symbol
      · subst same
        simp [cancel, common, ih]
        omega
      · simp [cancel, common, ih, List.count_erase, same]
    · have := List.count_eq_zero.mpr common
      by_cases same : first = symbol
      · subst same
        simp [cancel, common, ih]
        omega
      · simp [cancel, common, ih, same]

theorem pairwise_sorted (symbols : List String) : (sorted symbols).Pairwise (· ≤ ·) := by
  have := @List.pairwise_mergeSort String (fun a b => decide (a ≤ b))
    (fun a b c hab hbc => by
      simp only [decide_eq_true_eq] at *
      exact String.le_trans hab hbc)
    (fun a b => by simpa using String.le_total a b) symbols
  exact this.imp of_decide_eq_true

theorem perm_sorted (symbols : List String) : (sorted symbols).Perm symbols :=
  List.mergeSort_perm _ _

theorem count_numerator_normalized (symbol : String) (u : Units) :
    u.normalized.numerator.count symbol =
      u.numerator.count symbol - u.denominator.count symbol := by
  simp [normalized, (perm_sorted _).count_eq, count_cancel_fst]

theorem count_denominator_normalized (symbol : String) (u : Units) :
    u.normalized.denominator.count symbol =
      u.denominator.count symbol - u.numerator.count symbol := by
  simp [normalized, (perm_sorted _).count_eq, count_cancel_snd]

theorem normal_normalized (u : Units) : u.normalized.Normal where
  numerator_sorted := pairwise_sorted _
  denominator_sorted := pairwise_sorted _
  disjoint symbol above below := by
    rw [← List.count_pos_iff] at above below
    rw [count_numerator_normalized] at above
    rw [count_denominator_normalized] at below
    omega

end StyleValues.Units
