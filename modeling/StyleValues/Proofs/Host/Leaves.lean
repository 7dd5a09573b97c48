import StyleValues.Proofs.Host.CastBack
import StyleValues.Proofs.Host.Routes

/-! Which host values have no value form, and which cannot be written as JSON. Both are told from
the leaves of a host value: the first one that is refused decides the cause. -/

namespace StyleValues

def failure? : Except ε α → Option ε
  | .ok _ => none
  | .error cause => some cause

theorem failure?_eq_some_iff {outcome : Except ε α} {cause : ε} :
    failure? outcome = some cause ↔ outcome = .error cause := by
  cases outcome with
  | ok a => simp [failure?]
  | error why => simp [failure?]

theorem failure?_bind_pure (outcome : Except ε α) (g : α → β) :
    failure? (outcome >>= fun a => pure (g a)) = failure? outcome := by
  cases outcome <;> rfl

theorem failure?_mapM (f : α → Except ε β) (items : List α) :
    failure? (items.mapM f) = items.findSome? fun a => failure? (f a) := by
  induction items with
  | nil => rfl
  | cons a rest ih =>
    rw [List.mapM_cons, List.findSome?_cons]
    cases f a with
    | error cause => rfl
    | ok b =>
      change failure? (rest.mapM f >>= fun bs => pure (b :: bs)) = _
      rw [failure?_bind_pure, ih]
      rfl

theorem findSome?_flatMap (f : α → List β) (g : β → Option γ) (items : List α) :
    (items.flatMap f).findSome? g = items.findSome? fun a => (f a).findSome? g := by
  induction items with
  | nil => rfl
  | cons a rest ih =>
    rw [List.flatMap_cons, List.findSome?_append, ih, List.findSome?_cons]
    cases (f a).findSome? g <;> rfl

theorem findSome?_congr {f g : α → Option β} {items : List α} (alike : ∀ a ∈ items, f a = g a) :
    items.findSome? f = items.findSome? g := by
  induction items with
  | nil => rfl
  | cons a rest ih =>
    obtain ⟨first, others⟩ := List.forall_mem_cons.mp alike
    rw [List.findSome?_cons, List.findSome?_cons, first, ih others]

namespace Host

@[induction_eliminator]
theorem ind {motive : Host → Prop} (null : motive .null) (bool : ∀ b, motive (.bool b))
    (number : ∀ x, motive (.number x)) (string : ∀ text, motive (.string text))
    (list : ∀ items separator, (∀ h ∈ items, motive h) → motive (.list items separator))
    (object : ∀ fields : Table Host, (∀ field ∈ fields.entries, motive field.2) →
      motive (.object fields))
    (dimension : ∀ d, motive (.dimension d)) (map : ∀ m, motive (.map m))
    (tagged : ∀ v, motive (.tagged v)) (custom : ∀ c, motive (.custom c))
    (handle : ∀ description, motive (.handle description)) (h : Host) : motive h :=
  Host.rec (motive_2 := fun items => ∀ h ∈ items, motive h)
    (motive_3 := fun fields => ∀ field ∈ fields.entries, motive field.2)
    (motive_4 := fun fields => ∀ field ∈ fields, motive field.2)
    (motive_5 := fun field => motive field.2)
    null bool number string list object dimension map tagged custom handle nofun
    (fun _ _ first rest => List.forall_mem_cons.mpr ⟨first, rest⟩) (fun _ all => all) nofun
    (fun _ _ first rest => List.forall_mem_cons.mpr ⟨first, rest⟩) (fun _ _ value => value) h

mutual

/-- What is reached through lists and objects, depth first. -/
def leaves : Host → List Host
  | .list items _ => itemLeaves items
  | .object fields => tableLeaves fields
  | h => [h]
termination_by structural h => h

def itemLeaves : List Host → List Host
  | [] => []
  | h :: rest => h.leaves ++ itemLeaves rest
termination_by structural hs => hs

def tableLeaves : Table Host → List Host
  | ⟨fields⟩ => fieldLeaves fields
termination_by structural t => t

def fieldLeaves : List (String × Host) → List Host
  | [] => []
  | (_, h) :: rest => h.leaves ++ fieldLeaves rest
termination_by structural fs => fs

end

theorem itemLeaves_eq_flatMap (items : List Host) : itemLeaves items = items.flatMap leaves := by
  induction items with
  | nil => rfl
  | cons h rest ih => rw [itemLeaves, ih, List.flatMap_cons]

theorem tableLeaves_eq_flatMap (fields : Table Host) :
    tableLeaves fields = fields.entries.flatMap fun field => field.2.leaves := by
  obtain ⟨fields⟩ := fields
  rw [tableLeaves]
  induction fields with
  | nil => rfl
  | cons field rest ih => rw [fieldLeaves, ih, List.flatMap_cons]

theorem leaf_of_mem_leaves {leaf h : Host} (member : leaf ∈ h.leaves) :
    leaf.items? = none ∧ leaf.fields? = none := by
  induction h with
  | list items separator ih =>
    rw [leaves, itemLeaves_eq_flatMap] at member
    obtain ⟨item, inside, member⟩ := List.mem_flatMap.mp member
    exact ih item inside member
  | object fields ih =>
    rw [leaves, tableLeaves_eq_flatMap] at member
    obtain ⟨field, inside, member⟩ := List.mem_flatMap.mp member
    exact ih field inside member
  | _ =>
    cases List.mem_singleton.mp member
    exact ⟨rfl, rfl⟩

theorem toItems_eq_mapM (items : List Host) : toItems items = items.mapM toValue := by
  induction items with
  | nil => rfl
  | cons h rest ih => rw [toItems, ih, List.mapM_cons]

theorem jsonItems_eq_mapM (items : List Host) : jsonItems items = items.mapM toJson := by
  induction items with
  | nil => rfl
  | cons h rest ih => rw [jsonItems, ih, List.mapM_cons]

theorem toFields_eq_mapM (fields : Table Host) :
    toFields fields = fields.entries.mapM fun field =>
      field.2.toValue >>= fun v => pure (.string field.1, v) := by
  obtain ⟨fields⟩ := fields
  rw [toFields]
  induction fields with
  | nil => rfl
  | cons field rest ih =>
    rw [toEntries, ih, List.mapM_cons, bind_assoc]
    simp only [pure_bind]

theorem jsonTable_eq_mapM (fields : Table Host) :
    jsonTable fields = (fields.entries.mapM fun field =>
      field.2.toJson >>= fun j => pure (field.1, j)) >>= fun fields => pure ⟨fields⟩ := by
  obtain ⟨fields⟩ := fields
  rw [jsonTable]
  suffices jsonFields fields = fields.mapM fun field =>
      field.2.toJson >>= fun j => pure (field.1, j) by rw [this]
  induction fields with
  | nil => rfl
  | cons field rest ih =>
    rw [jsonFields, ih, List.mapM_cons, bind_assoc]
    simp only [pure_bind]

theorem failure?_toValue (h : Host) :
    failure? h.toValue = h.leaves.findSome? fun leaf => failure? leaf.toValue := by
  induction h with
  | list items separator ih =>
    rw [toValue, failure?_bind_pure, toItems_eq_mapM, failure?_mapM, leaves,
      itemLeaves_eq_flatMap, findSome?_flatMap]
    exact findSome?_congr ih
  | object fields ih =>
    rw [toValue, failure?_bind_pure, toFields_eq_mapM, failure?_mapM, leaves,
      tableLeaves_eq_flatMap, findSome?_flatMap]
    simp only [failure?_bind_pure]
    exact findSome?_congr ih
  | _ => exact List.findSome?_singleton.symm

theorem failure?_toJson (h : Host) :
    failure? h.toJson = h.leaves.findSome? fun leaf => failure? leaf.toJson := by
  induction h with
  | list items separator ih =>
    rw [toJson, failure?_bind_pure, jsonItems_eq_mapM, failure?_mapM, leaves,
      itemLeaves_eq_flatMap, findSome?_flatMap]
    exact findSome?_congr ih
  | object fields ih =>
    rw [toJson, failure?_bind_pure, jsonTable_eq_mapM, failure?_bind_pure, failure?_mapM, leaves,
      tableLeaves_eq_flatMap, findSome?_flatMap]
    simp only [failure?_bind_pure]
    exact findSome?_congr ih
  | _ => exact List.findSome?_singleton.symm

inductive NoJson : Host → CastError → Prop
  | handle (description : String) : NoJson (.handle description) (.unsupported description)
  | custom {c : Custom} {cause : CastError} (fails : c.outcome = .error cause) :
      NoJson (.custom c) cause

/-- The leaves that have no value form: a number with more than one symbol above the bar, or with
any below it, has a text only. -/
inductive NoValue : Host → CastError → Prop
  | noJson {h : Host} {cause : CastError} (refused : NoJson h cause) : NoValue h cause
  | dimension {d : Dimension}
      (complex : 1 < d.units.numerator.length ∨ d.units.denominator ≠ []) :
      NoValue (.dimension d) (.units (.unsupported d.units.text))

/-- The cause of the first leaf that is refused. -/
def FirstRefused (refused : Host → CastError → Prop) (h : Host) (cause : CastError) : Prop :=
  ∃ front leaf behind, h.leaves = front ++ leaf :: behind ∧ refused leaf cause ∧
    ∀ other ∈ front, ∀ why, ¬refused other why

theorem noJson_iff {leaf : Host} {cause : CastError}
    (single : leaf.items? = none ∧ leaf.fields? = none) :
    NoJson leaf cause ↔ leaf.toJson = .error cause := by
  constructor
  · intro refused
    cases refused with
    | handle description => rfl
    | custom fails =>
      rw [toJson, fails]
      rfl
  · intro fails
    cases leaf with
    | list items separator => cases single.1
    | object fields => cases single.2
    | custom c =>
      have failure := congrArg failure? fails
      rw [toJson, failure?_bind_pure] at failure
      exact .custom (failure?_eq_some_iff.mp failure)
    | handle description =>
      cases fails
      exact .handle description
    | _ => cases fails

theorem not_fits_iff {units : Units} :
    ¬units.Fits ↔ 1 < units.numerator.length ∨ units.denominator ≠ [] := by
  rw [Units.Fits, not_and_or, Nat.not_le]

theorem toValue_dimension_eq_error_iff {d : Dimension} {cause : CastError} :
    (Host.dimension d).toValue = .error cause ↔
      ¬d.units.Fits ∧ .units (.unsupported d.units.text) = cause := by
  rw [toValue, Dimension.toValue_eq]
  split
  · rename_i fits
    simp [Except.mapError, fits]
  · rename_i unfit
    simp [Except.mapError, unfit]

theorem noValue_iff {leaf : Host} {cause : CastError}
    (single : leaf.items? = none ∧ leaf.fields? = none) :
    NoValue leaf cause ↔ leaf.toValue = .error cause := by
  constructor
  · intro refused
    cases refused with
    | noJson refused =>
      cases refused with
      | handle description => rfl
      | custom fails => exact fails
    | dimension complex =>
      exact toValue_dimension_eq_error_iff.mpr ⟨not_fits_iff.mpr complex, rfl⟩
  · intro fails
    cases leaf with
    | list items separator => cases single.1
    | object fields => cases single.2
    | dimension d =>
      obtain ⟨unfit, rfl⟩ := toValue_dimension_eq_error_iff.mp fails
      exact .dimension (not_fits_iff.mp unfit)
    | custom c => exact .noJson (.custom fails)
    | handle description =>
      cases fails
      exact .noJson (.handle description)
    | _ => cases fails

section Refusal

variable {f : Host → Except CastError α} {refused : Host → CastError → Prop}
  (whole : ∀ h : Host, failure? (f h) = h.leaves.findSome? fun leaf => failure? (f leaf))
  (single : ∀ {leaf cause}, leaf.items? = none ∧ leaf.fields? = none →
    (refused leaf cause ↔ f leaf = .error cause))

include single in
theorem refused_iff {h leaf : Host} (member : leaf ∈ h.leaves) (cause : CastError) :
    refused leaf cause ↔ failure? (f leaf) = some cause :=
  (single (leaf_of_mem_leaves member)).trans failure?_eq_some_iff.symm

include whole single

/-- What fails as its leaves do, first of all fails as the first leaf that is refused. -/
theorem eq_error_iff_firstRefused (h : Host) (cause : CastError) :
    f h = .error cause ↔ FirstRefused refused h cause := by
  rw [← failure?_eq_some_iff, whole, List.findSome?_eq_some_iff]
  refine exists_congr fun front => exists_congr fun leaf => exists_congr fun behind =>
    and_congr_right fun split => ?_
  have here : leaf ∈ h.leaves := by simp [split]
  have before : ∀ other ∈ front, other ∈ h.leaves := fun other member => by simp [split, member]
  refine and_congr (refused_iff single here cause).symm (forall₂_congr fun other member => ?_)
  rw [Option.eq_none_iff_forall_ne_some]
  exact forall_congr' fun why => not_congr (refused_iff single (before other member) why).symm

theorem fails_iff_some_leaf (h : Host) :
    (∃ cause, f h = .error cause) ↔ ∃ leaf ∈ h.leaves, ∃ cause, refused leaf cause := by
  simp only [← failure?_eq_some_iff, whole h]
  rw [← Option.isSome_iff_exists, List.findSome?_isSome_iff]
  refine exists_congr fun leaf => and_congr_right fun member => ?_
  rw [Option.isSome_iff_exists]
  exact exists_congr fun cause => (refused_iff single member cause).symm

end Refusal

theorem forall₂_jsonTable (m : KeyedMap) :
    List.Forall₂ (fun pair field => field.1 = pair.1.keyText ∧ pair.2.toHost.toJson = .ok field.2)
      m.pairs (Stored.jsonTable m) := by
  rw [Stored.jsonTable_eq_map, List.forall₂_map_right_iff, List.forall₂_same]
  exact fun pair _ => ⟨rfl, pair.2.toJson_toHost⟩

/-- Both casts fail exactly on account of a leaf, and with the cause of the first leaf that is
refused. Maps and tagged values are never refused, nor is what is cast on the way while they are
written. -/
theorem casts_fail_at_leaves (h : Host) :
    (∀ cause, h.toValue = .error cause ↔ FirstRefused NoValue h cause) ∧
    ((∃ cause, h.toValue = .error cause) ↔ ∃ leaf ∈ h.leaves, ∃ cause, NoValue leaf cause) ∧
    (∀ cause, h.toJson = .error cause ↔ FirstRefused NoJson h cause) ∧
    ((∃ cause, h.toJson = .error cause) ↔ ∃ leaf ∈ h.leaves, ∃ cause, NoJson leaf cause) ∧
    (∀ m : KeyedMap, ∃ v fields, (map m).toValue = .ok v ∧
      (map m).toJson = .ok (.object (.ofList fields)) ∧
      List.Forall₂ (fun pair field =>
        field.1 = pair.1.keyText ∧ pair.2.toHost.toJson = .ok field.2) m.pairs fields) ∧
    (∀ v : Value, ∃ j, (tagged v).toValue = .ok v ∧ (tagged v).toJson = .ok j ∧
      v.toHost.toJson = .ok j) := by
  refine ⟨eq_error_iff_firstRefused failure?_toValue noValue_iff h,
    fails_iff_some_leaf failure?_toValue noValue_iff h,
    eq_error_iff_firstRefused failure?_toJson noJson_iff h,
    fails_iff_some_leaf failure?_toJson noJson_iff h, fun m => ?_, fun v => ?_⟩
  · exact ⟨m.toValue, Stored.jsonTable m, rfl, rfl, forall₂_jsonTable m⟩
  · exact ⟨v.toJson, rfl, rfl, v.toJson_toHost⟩

end Host

end StyleValues
