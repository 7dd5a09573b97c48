import StyleValues.Proofs.Dimension.Compatible
import StyleValues.Proofs.Number.Order

/-! Comparisons of numbers with units. All of them follow from the order where there is one, and
among numbers of the same units the order sorts. -/

namespace StyleValues.Dimension

open Number

/-- What the other comparisons of two numbers say, once it is known how they are ordered. -/
structure Agree (a b : Dimension) (o : Ordering) : Prop where
  lt : a.lt b = .ok (o == .lt)
  gt : a.gt b = .ok (o == .gt)
  equals : a.equals b = .ok (o == .eq && !a.value.isNaN && !b.value.isNaN)
  lte : ∃ less same, a.lt b = .ok less ∧ a.equals b = .ok same ∧ a.lte b = .ok (less || same)
  gte : ∃ more same, a.gt b = .ok more ∧ a.equals b = .ok same ∧ a.gte b = .ok (more || same)

def AtMost (a b : Dimension) : Prop := ∃ o, a.compareTo b = .ok o ∧ o ≠ .gt

def Sortable (u : Units) (d : Dimension) : Prop := d.units = u ∧ ¬d.value.isNaN

theorem takes_of_compareTo {a b : Dimension} {o : Ordering} (compared : a.compareTo b = .ok o) :
    b.units = .none ∨ b.units = a.units := by
  by_contra takes
  rw [compareTo, combine_of_not_takes takes] at compared
  cases compared

theorem compareTo_eq_iff {a b : Dimension} {o : Ordering} :
    a.compareTo b = .ok o ↔
      (b.units = .none ∨ b.units = a.units) ∧ orderOf a.value b.value = o := by
  constructor
  · intro compared
    have takes := takes_of_compareTo compared
    rw [(combines_of_takes takes).compareTo] at compared
    exact ⟨takes, Except.ok.inj compared⟩
  · rintro ⟨takes, rfl⟩
    exact (combines_of_takes takes).compareTo

section Order

variable (x y : Float)

theorem orderOf_eq : orderOf x y = ((parts x).compare (parts y)).getD .eq := by
  unfold orderOf
  simp only [lt_iff (x := x), gt_iff]
  cases (parts x).compare (parts y) with
  | none => rfl
  | some o => cases o <;> rfl

theorem orderOf_swap : orderOf y x = (orderOf x y).swap := by
  rw [orderOf_eq, orderOf_eq, compare_swap x y]
  cases (parts x).compare (parts y) <;> rfl

theorem lt_eq_orderOf : decide (x < y) = (orderOf x y == .lt) := by
  rw [orderOf_eq, Bool.eq_iff_iff, decide_eq_true_iff, lt_iff]
  cases (parts x).compare (parts y) <;> simp

theorem gt_eq_orderOf : decide (y < x) = (orderOf x y == .gt) := by
  rw [orderOf_eq, Bool.eq_iff_iff, decide_eq_true_iff, gt_iff]
  cases (parts x).compare (parts y) <;> simp

theorem beq_eq_orderOf : (x == y) = (orderOf x y == .eq && !x.isNaN && !y.isNaN) := by
  rw [orderOf_eq, Bool.eq_iff_iff, beq_iff]
  by_cases nan : x.isNaN ∨ y.isNaN
  · rw [compare_of_nan nan]
    rcases nan with nan | nan
    · rw [nan]
      simp
    · rw [nan]
      simp
  · obtain ⟨hx, hy⟩ := not_or.mp nan
    rw [compare_of_not_nan hx hy, Bool.eq_false_of_not_eq_true hx, Bool.eq_false_of_not_eq_true hy]
    simp

theorem le_eq_or : decide (x ≤ y) = (decide (x < y) || x == y) := by
  rw [Bool.eq_iff_iff, decide_eq_true_iff, le_iff_lt_or_beq, Bool.or_eq_true, decide_eq_true_iff]

end Order

theorem agree_of_compareTo {a b : Dimension} {o : Ordering} (compared : a.compareTo b = .ok o) :
    Agree a b o := by
  obtain ⟨takes, rfl⟩ := compareTo_eq_iff.mp compared
  have combines := combines_of_takes takes
  constructor
  · rw [combines.lt, lt_eq_orderOf]
  · rw [combines.gt, gt_eq_orderOf]
  · rw [combines.equals, beq_eq_orderOf]
  · refine ⟨_, _, combines.lt, combines.equals, ?_⟩
    rw [combines.lte, le_eq_or]
  · refine ⟨_, _, combines.gt, combines.equals, ?_⟩
    rw [combines.gte, le_eq_or, BEq.comm]

theorem atMost_iff {u : Units} {a b : Dimension} (first : Sortable u a) (second : Sortable u b) :
    AtMost a b ↔ rank (parts a.value) ≤ rank (parts b.value) := by
  have takes : b.units = .none ∨ b.units = a.units := .inr (second.1.trans first.1.symm)
  have order : orderOf a.value b.value = compare (rank (parts a.value)) (rank (parts b.value)) := by
    rw [orderOf_eq, compare_of_not_nan first.2 second.2]
    rfl
  simp only [AtMost, compareTo_eq_iff, order, takes, true_and, exists_eq_left']
  exact compare_le_iff_le

/-- Whenever two numbers can be compared, all comparisons say the same of them, and the other way
around the order turns around. Among numbers of the same units the order is transitive and total. -/
theorem comparisons_agree :
    (∀ a b o p, compareTo a b = .ok o → compareTo b a = .ok p → p = o.swap) ∧
    (∀ a b o, compareTo a b = .ok o → Agree a b o) ∧
    ∀ u : Units,
      (∀ a b c, Sortable u a → Sortable u b → Sortable u c → AtMost a b → AtMost b c → AtMost a c) ∧
      ∀ a b, Sortable u a → Sortable u b → AtMost a b ∨ AtMost b a := by
  refine ⟨fun a b o p forth back => ?_, fun a b o => agree_of_compareTo, fun u => ⟨?_, ?_⟩⟩
  · rw [← (compareTo_eq_iff.mp forth).2, ← (compareTo_eq_iff.mp back).2]
    exact orderOf_swap a.value b.value
  · intro a b c first second third
    rw [atMost_iff first second, atMost_iff second third, atMost_iff first third]
    exact le_trans
  · intro a b first second
    rw [atMost_iff first second, atMost_iff second first]
    exact le_total _ _

def pixels (x : Float) : Dimension where
  value := x
  units := ⟨["px"], []⟩
  normal := ⟨by decide, by decide, by decide⟩

/-- What is not a number compares as equal and equals nothing, and both zeros lie between the
infinities. -/
theorem comparisons_agree_pixels :
    (pixels (-1 / 0)).compareTo (pixels 0) = .ok .lt ∧
      (pixels 0).compareTo (pixels (-1 / 0)) = .ok .gt ∧ Ordering.gt = Ordering.lt.swap ∧
      (pixels (0 / 0)).compareTo (unitless 1) = .ok .eq ∧
      (pixels (0 / 0)).equals (unitless 1) = .ok false ∧
      (∀ x ∈ [-1 / 0, -0, 0], Sortable ⟨["px"], []⟩ (pixels x)) ∧
      AtMost (pixels (-1 / 0)) (pixels 0) ∧
      (AtMost (pixels 0) (pixels (-0)) ∨ AtMost (pixels (-0)) (pixels 0)) := by
  have below : (pixels (-1 / 0)).compareTo (pixels 0) = .ok .lt :=
    compareTo_eq_iff.mpr ⟨.inr rfl, by decide +kernel⟩
  have above : (pixels 0).compareTo (pixels (-1 / 0)) = .ok .gt :=
    compareTo_eq_iff.mpr ⟨.inr rfl, by decide +kernel⟩
  have negative : (pixels (-1 / 0)).compareTo (pixels (-0)) = .ok .lt :=
    compareTo_eq_iff.mpr ⟨.inr rfl, by decide +kernel⟩
  have zeros : (pixels (-0)).compareTo (pixels 0) = .ok .eq :=
    compareTo_eq_iff.mpr ⟨.inr rfl, by decide +kernel⟩
  have nan : (pixels (0 / 0)).compareTo (unitless 1) = .ok .eq :=
    compareTo_eq_iff.mpr ⟨.inl Units.normal_none.normalized_eq, by decide +kernel⟩
  have numbers : ∀ x ∈ [-1 / 0, -0, 0], Sortable ⟨["px"], []⟩ (pixels x) := by
    have : ∀ x ∈ [-1 / 0, -0, 0], ¬Float.isNaN x := by decide +kernel
    exact fun x member => ⟨rfl, this x member⟩
  obtain ⟨least, low, high⟩ : Sortable ⟨["px"], []⟩ (pixels (-1 / 0)) ∧
      Sortable ⟨["px"], []⟩ (pixels (-0)) ∧ Sortable ⟨["px"], []⟩ (pixels 0) := by
    simpa using numbers
  obtain ⟨opposite, agree, sorts⟩ := comparisons_agree
  obtain ⟨transitive, total⟩ := sorts ⟨["px"], []⟩
  refine ⟨below, above, opposite _ _ _ _ below above, nan, ?_, numbers, ?_, total _ _ high low⟩
  · rw [(agree _ _ _ nan).equals]
    decide +kernel
  · exact transitive _ _ _ least low high ⟨_, negative, nofun⟩ ⟨_, zeros, nofun⟩

end StyleValues.Dimension
