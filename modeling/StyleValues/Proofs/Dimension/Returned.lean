import StyleValues.Dimension.Reader
import StyleValues.Proofs.Dimension.Compatible

/-! Normal units told by occurrences: what is left of each symbol when common ones cancel one for
one. All dimensions that are ever returned have units of this form. -/

namespace StyleValues

namespace Units

/-- Each occurrence above the fraction bar has taken one below with it, as long as there were any,
and both sides are sorted. -/
structure CancelsTo (u rest : Units) : Prop where
  count_numerator : ∀ symbol, rest.numerator.count symbol =
    u.numerator.count symbol - min (u.numerator.count symbol) (u.denominator.count symbol)
  count_denominator : ∀ symbol, rest.denominator.count symbol =
    u.denominator.count symbol - min (u.numerator.count symbol) (u.denominator.count symbol)
  numerator_sorted : rest.numerator.Pairwise (· ≤ ·)
  denominator_sorted : rest.denominator.Pairwise (· ≤ ·)

theorem cancelsTo_normalized (u : Units) : u.CancelsTo u.normalized where
  count_numerator symbol := by
    rw [count_numerator_normalized]
    omega
  count_denominator symbol := by
    rw [count_denominator_normalized]
    omega
  numerator_sorted := u.normal_normalized.numerator_sorted
  denominator_sorted := u.normal_normalized.denominator_sorted

theorem eq_normalized_iff {u rest : Units} : rest = u.normalized ↔ u.CancelsTo rest := by
  refine ⟨fun same => same ▸ cancelsTo_normalized u, fun cancels => ?_⟩
  have other := cancelsTo_normalized u
  have above : rest.numerator = u.normalized.numerator := by
    refine eq_of_count_eq cancels.numerator_sorted other.numerator_sorted fun symbol => ?_
    rw [cancels.count_numerator, other.count_numerator]
  have below : rest.denominator = u.normalized.denominator := by
    refine eq_of_count_eq cancels.denominator_sorted other.denominator_sorted fun symbol => ?_
    rw [cancels.count_denominator, other.count_denominator]
  exact (Units.mk.injEq ..).mpr ⟨above, below⟩

end Units

namespace Dimension

/-- The dimensions that come out of the constructors, of a text, and of the operations on others. -/
inductive Returned : Dimension → Prop
  | of (x : Float) (units : Units) : Returned (of x units)
  | unitless (x : Float) : Returned (unitless x)
  | ofNumber (x : Float) (unit : String) : Returned (ofNumber x unit)
  | parse {text : String} {d : Dimension} (read : parse text = .ok d) : Returned d
  | convertTo {a d : Dimension} {target : Units} (first : Returned a)
      (result : a.convertTo target = .ok d) : Returned d
  | add {a b d : Dimension} (first : Returned a) (second : Returned b)
      (result : a.add b = .ok d) : Returned d
  | subtract {a b d : Dimension} (first : Returned a) (second : Returned b)
      (result : a.subtract b = .ok d) : Returned d
  | multiply {a b : Dimension} (first : Returned a) (second : Returned b) :
      Returned (a.multiply b)
  | divide {a b : Dimension} (first : Returned a) (second : Returned b) : Returned (a.divide b)

theorem exists_of_combine {f : Float → Float → Dimension} {a b d : Dimension}
    (result : combine f a b = .ok d) : ∃ y, d = f a.value y := by
  unfold combine at result
  cases converted : b.convertTo a.units with
  | error cause => simp [converted, bind, Except.bind] at result
  | ok c =>
    rw [converted] at result
    exact ⟨c.value, (Except.ok.inj result).symm⟩

theorem exists_of_parse {text : String} {d : Dimension} (read : parse text = .ok d) :
    ∃ x unit, d = ofNumber x unit := by
  unfold parse at read
  dsimp only at read
  split at read
  next x rest _ => exact ⟨x, _, (Except.ok.inj read).symm⟩
  next => cases read

theorem convertTo_eq {a d : Dimension} {target : Units} (result : a.convertTo target = .ok d) :
    d = of a.value target ∨ d = a := by
  unfold convertTo at result
  split at result
  · exact .inl (Except.ok.inj result).symm
  · split at result
    · exact .inr (Except.ok.inj result).symm
    · cases result

/-- Whatever is returned was given units to cancel, or is a dimension that was returned before. -/
theorem Returned.exists_units_eq {d : Dimension} (returned : Returned d) :
    ∃ u : Units, d.units = u.normalized := by
  induction returned with
  | of x units => exact ⟨units, rfl⟩
  | unitless x => exact ⟨.none, rfl⟩
  | ofNumber x unit => exact ⟨.parse unit, rfl⟩
  | parse read =>
    obtain ⟨x, unit, rfl⟩ := exists_of_parse read
    exact ⟨.parse unit, rfl⟩
  | convertTo first result ih =>
    rcases convertTo_eq result with rfl | rfl
    · exact ⟨_, rfl⟩
    · exact ih
  | add first second result =>
    obtain ⟨y, rfl⟩ := exists_of_combine result
    exact ⟨_, rfl⟩
  | subtract first second result =>
    obtain ⟨y, rfl⟩ := exists_of_combine result
    exact ⟨_, rfl⟩
  | multiply first second => exact ⟨_, rfl⟩
  | divide first second => exact ⟨_, rfl⟩

/-- To normalize is to cancel common symbols one for one and to sort, and nothing else. No symbol
stays on both sides, a second time changes nothing, and units have one normal form exactly if every
symbol has one net exponent in them. All dimensions that are ever returned have such units. -/
theorem normalized_cancels :
    (∀ u rest : Units, rest = u.normalized ↔ u.CancelsTo rest) ∧
    (∀ u : Units, (∀ symbol ∈ u.normalized.numerator, symbol ∉ u.normalized.denominator) ∧
      u.normalized.normalized = u.normalized) ∧
    (∀ u v : Units,
      u.normalized = v.normalized ↔ ∀ symbol, u.exponent symbol = v.exponent symbol) ∧
    ∀ d, Returned d → (∃ u : Units, d.units = u.normalized) ∧ d.units.normalized = d.units := by
  have again (u : Units) : u.normalized.normalized = u.normalized :=
    u.normal_normalized.normalized_eq
  refine ⟨fun u rest => Units.eq_normalized_iff,
    fun u => ⟨u.normal_normalized.disjoint, again u⟩, fun u v => Units.normalized_eq_iff,
    fun d returned => ?_⟩
  obtain ⟨u, same⟩ := returned.exists_units_eq
  exact ⟨⟨u, same⟩, same ▸ again u⟩

def pace : Units := ⟨["px", "", "px"], ["px", "s", ""]⟩

theorem normalized_cancels_pace :
    pace.normalized = ⟨["px"], ["s"]⟩ ∧
      ∃ sum, ((of 10 pace).multiply (of 2 pace)).add (unitless 1) = .ok sum ∧
        Returned sum ∧ sum.units = ⟨["px", "px"], ["s", "s"]⟩ ∧
        sum.units.normalized = sum.units := by
  have once : pace.normalized = ⟨["px"], ["s"]⟩ := by
    refine ((normalized_cancels.1 pace _).mpr ⟨fun symbol => ?_, fun symbol => ?_, ?_, ?_⟩).symm
    · simp only [pace, List.count_cons, List.count_nil]
      grind
    · simp only [pace, List.count_cons, List.count_nil]
      grind
    · exact List.pairwise_singleton _ _
    · exact List.pairwise_singleton _ _
  have squared : ((of 10 pace).multiply (of 2 pace)).units = ⟨["px", "px"], ["s", "s"]⟩ := by
    dsimp only [multiply, of]
    rw [once]
    exact Units.Normal.normalized_eq ⟨by simp, by simp, by simp⟩
  obtain ⟨sum, result, -, units⟩ := (combines_of_takes (a := (of 10 pace).multiply (of 2 pace))
    (.inl (isUnitless_iff.mp (isUnitless_unitless 1)))).add
  have returned := Returned.add (.multiply (.of 10 pace) (.of 2 pace)) (.unitless 1) result
  exact ⟨once, sum, result, returned, units.trans squared,
    (normalized_cancels.2.2.2 sum returned).2⟩

end Dimension

end StyleValues
