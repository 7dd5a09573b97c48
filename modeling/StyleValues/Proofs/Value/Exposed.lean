import StyleValues.Proofs.Units.Plain
import StyleValues.Proofs.Value.Paths

/-! What is reached in a value through lists only, and what a cast there and back does to it. -/

namespace StyleValues.Value

mutual

/-- The parts that are no lists, in order. -/
def exposed : Value → List Value
  | .list items _ => exposedItems items
  | v => [v]
termination_by structural v => v

def exposedItems : List Value → List Value
  | [] => []
  | v :: rest => v.exposed ++ exposedItems rest
termination_by structural vs => vs

end

def unfitUnits? : Value → Option Units
  | .number _ unit =>
      let units := (Units.parse unit).normalized
      if units.Fits then none else some units
  | _ => none

mutual

/-- Exposed numbers get their units in normal form, exposed maps lose repeated keys. -/
def settled : Value → Value
  | .number x unit => .number x (Units.parse unit).normalized.text
  | .list items separator => .list (settledItems items) separator
  | .map entries => .map (uniqueEntries entries)
  | v => v
termination_by structural v => v

def settledItems : List Value → List Value
  | [] => []
  | v :: rest => v.settled :: settledItems rest
termination_by structural vs => vs

end

theorem settledItems_eq_map (items : List Value) : settledItems items = items.map settled := by
  induction items with
  | nil => rfl
  | cons v rest ih => rw [settledItems, ih, List.map_cons]

theorem mem_exposedItems {part : Value} {items : List Value} :
    part ∈ exposedItems items ↔ ∃ v ∈ items, part ∈ v.exposed := by
  induction items with
  | nil => simp [exposedItems]
  | cons v rest ih => simp [exposedItems, ih]

theorem kind_ne_list_of_mem_exposed {part v : Value} (member : part ∈ v.exposed) :
    part.kind ≠ .list := by
  induction v with
  | list items separator ih =>
    obtain ⟨v, inside, member⟩ := mem_exposedItems.mp member
    exact ih v inside member
  | _ =>
    cases List.mem_singleton.mp member
    nofun

theorem settled_eq_self {v : Value} (parts : ∀ part ∈ v.exposed, part.settled = part) :
    v.settled = v := by
  induction v with
  | list items separator ih =>
    have each : ∀ v ∈ items, v.settled = id v := by
      intro v member
      refine ih v member fun part inside => parts part ?_
      exact mem_exposedItems.mpr ⟨v, member, inside⟩
    rw [settled, settledItems_eq_map, List.map_congr_left each, List.map_id]
  | _ => exact parts _ List.mem_cons_self

end StyleValues.Value
