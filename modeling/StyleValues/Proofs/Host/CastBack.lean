import StyleValues.Host.Cast
import StyleValues.Proofs.KeyedMap.ValueForm
import StyleValues.Proofs.Value.Exposed

/-! Values cast to host values and back. -/

namespace StyleValues

theorem Dimension.toValue_eq (d : Dimension) :
    d.toValue = if d.units.Fits then .ok (.number d.value d.units.text)
      else .error (.unsupported d.units.text) := by
  obtain ⟨x, ⟨numerator, denominator⟩, normal⟩ := d
  rcases numerator with _ | ⟨symbol, _ | ⟨other, above⟩⟩ <;>
    rcases denominator with _ | ⟨below, others⟩ <;>
    simp [toValue, Units.Fits, Units.text, pure, Except.pure, throw, throwThe, MonadExceptOf.throw]

namespace Value

/-- What a cast there and back makes of a value, once it is known which units have no room. -/
def outcome (v : Value) : Except CastError Value :=
  match v.exposed.findSome? unfitUnits? with
  | some units => .error (.units (.unsupported units.text))
  | none => .ok v.settled

theorem toItems_toHosts {items : List Value}
    (each : ∀ v ∈ items, v.toHost.toValue = v.outcome) :
    Host.toItems (toHosts items) =
      match (exposedItems items).findSome? unfitUnits? with
      | some units => .error (.units (.unsupported units.text))
      | none => .ok (settledItems items) := by
  induction items with
  | nil => rfl
  | cons v rest ih =>
    obtain ⟨first, others⟩ := List.forall_mem_cons.mp each
    rw [toHosts, Host.toItems, exposedItems, List.findSome?_append, first, ih others, outcome]
    cases v.exposed.findSome? unfitUnits? with
    | some units => rfl
    | none =>
      cases (exposedItems rest).findSome? unfitUnits? with
      | some units => rfl
      | none => rfl

theorem toValue_toHost_number (x : Float) (unit : String) :
    (Value.number x unit).toHost.toValue = (Value.number x unit).outcome := by
  have cast : (Value.number x unit).toHost.toValue =
      Except.mapError CastError.units (if (Units.parse unit).normalized.Fits then
        .ok (.number x (Units.parse unit).normalized.text)
      else .error (.unsupported (Units.parse unit).normalized.text)) :=
    congrArg (Except.mapError CastError.units) (Dimension.toValue_eq (.ofNumber x unit))
  have exposed : (Value.number x unit).exposed = [.number x unit] := rfl
  rw [cast, outcome, exposed, List.findSome?_cons, unfitUnits?]
  by_cases fits : (Units.parse unit).normalized.Fits
  · simp only [if_pos fits]
    rfl
  · simp only [if_neg fits]
    rfl

theorem toValue_toHost_eq_outcome (v : Value) : v.toHost.toValue = v.outcome := by
  induction v with
  | number x unit => exact toValue_toHost_number x unit
  | list items separator ih =>
    rw [toHost, Host.toValue, toItems_toHosts ih, outcome, exposed, settled]
    cases (exposedItems items).findSome? unfitUnits? with
    | some units => rfl
    | none => rfl
  | map entries ih =>
    have entries_eq : (KeyedMap.ofEntries entries).toEntries = uniqueEntries entries :=
      (KeyedMap.reads_ofEntries entries).toEntries_eq
    rw [toHost, Host.toValue, KeyedMap.toValue, entries_eq]
    rfl
  | _ => rfl

theorem findSome?_unfitUnits?_eq_none {parts : List Value} :
    parts.findSome? unfitUnits? = none ↔
      ∀ x unit, .number x unit ∈ parts → (Units.parse unit).normalized.Fits := by
  rw [List.findSome?_eq_none_iff]
  constructor
  · intro none x unit member
    by_contra unfit
    have fits := none _ member
    rw [unfitUnits?, if_neg unfit] at fits
    cases fits
  · intro fits part member
    cases part with
    | number x unit => exact if_pos (fits x unit member)
    | _ => rfl

theorem settled_eq_self_of_plain {part : Value}
    (units : ∀ x unit, part = .number x unit → Units.Plain unit)
    (keys : ∀ entries, part = .map entries → (keyFingerprints entries).Nodup)
    (noList : part.kind ≠ .list) : part.settled = part := by
  cases part with
  | number x unit =>
    rw [settled, Units.parse_of_plain (units x unit rfl), Units.normalized_single,
      Units.text_single]
  | map entries => rw [settled, uniqueEntries_of_nodup (keys entries rfl)]
  | list items separator => exact absurd rfl noList
  | _ => rfl

/-- A cast there and back fails with the first exposed number whose normal units are no single
symbol. Else it settles the value, which leaves it alone if no exposed unit has dividers and no
exposed map repeats a key. -/
theorem toValue_toHost (v : Value) :
    (v.toHost.toValue = match v.exposed.findSome? unfitUnits? with
      | some units => .error (.units (.unsupported units.text))
      | none => .ok v.settled) ∧
    ((∃ w, v.toHost.toValue = .ok w) ↔
      ∀ x unit, .number x unit ∈ v.exposed → (Units.parse unit).normalized.Fits) ∧
    ((∀ x unit, .number x unit ∈ v.exposed → Units.Plain unit) →
      (∀ entries, .map entries ∈ v.exposed → (keyFingerprints entries).Nodup) →
      v.toHost.toValue = .ok v) := by
  refine ⟨toValue_toHost_eq_outcome v, ?_, fun units keys => ?_⟩
  · rw [← findSome?_unfitUnits?_eq_none, toValue_toHost_eq_outcome, outcome]
    cases v.exposed.findSome? unfitUnits? with
    | some units => simp
    | none => simp
  · have fits : v.exposed.findSome? unfitUnits? = none := by
      refine findSome?_unfitUnits?_eq_none.mpr fun x unit member => ?_
      rw [Units.parse_of_plain (units x unit member), Units.normalized_single]
      exact Units.fits_single unit
    rw [toValue_toHost_eq_outcome, outcome, fits]
    refine congrArg Except.ok (settled_eq_self fun part member => ?_)
    apply settled_eq_self_of_plain
    · rintro x unit rfl
      exact units x unit member
    · rintro entries rfl
      exact keys entries member
    · exact kind_ne_list_of_mem_exposed member

def margins : Value :=
  .list [.number 4 "px", .list [.map [(.string "top", .number 1 "px/s")], .null] .comma] .space

theorem toValue_toHost_margins :
    (∀ x unit, .number x unit ∈ margins.exposed → Units.Plain unit) ∧
      (∀ entries, .map entries ∈ margins.exposed → (keyFingerprints entries).Nodup) ∧
      margins.toHost.toValue = .ok margins := by
  have parts : margins.exposed =
      [.number 4 "px", .map [(.string "top", .number 1 "px/s")], .null] := rfl
  have units : ∀ x unit, .number x unit ∈ margins.exposed → Units.Plain unit := by
    intro x unit member
    rw [parts] at member
    simp only [List.mem_cons, number.injEq, reduceCtorEq, List.not_mem_nil, or_false] at member
    rw [member.2]
    decide
  have keys : ∀ entries, .map entries ∈ margins.exposed → (keyFingerprints entries).Nodup := by
    intro entries member
    rw [parts] at member
    simp only [List.mem_cons, map.injEq, reduceCtorEq, List.not_mem_nil, or_false,
      false_or] at member
    rw [member]
    decide
  exact ⟨units, keys, (toValue_toHost margins).2.2 units keys⟩

end Value

end StyleValues
