import StyleValues.Proofs.KeyedMap.Alike
import StyleValues.Proofs.KeyedMap.Runs

/-! The entries that a deep update comes to: in which order, what it asks about them, and where it
stores the answers. -/

namespace StyleValues

theorem Stored.pairs?_eq_none_iff_kind {s : Stored} : s.pairs? = none ↔ s.kind ≠ .map := by
  rw [pairs?_eq_none_iff, kind_toValue]

theorem Stored.keyedMap?_eq_none_iff_kind {s : Stored} : s.keyedMap? = none ↔ s.kind ≠ .map := by
  rw [keyedMap?_eq_none_iff, pairs?_eq_none_iff_kind]

/-- An entry of a source as an update comes to it. Its place are the positions of the entries that
it is in, from the outermost one on; its index is its own position there. What its key holds is what
it holds at that moment. -/
structure Visit where
  place : List Nat
  index : Nat
  key : Value
  new : Stored
  old? : Option Stored

namespace Visit

def address (visit : Visit) : List Nat := visit.place ++ [visit.index]

def bothMaps (visit : Visit) : Bool :=
  visit.new.kind = .map && visit.old?.any fun old => old.kind = .map

def call? (answer : Value → Stored → Stored → Stored) (visit : Visit) : Option Call :=
  match visit.old? with
  | none => none
  | some old =>
      if visit.bothMaps then none
      else some ⟨visit.key, visit.new, old, answer visit.key visit.new old⟩

theorem bothMaps_eq_false {place : List Nat} {index : Nat} {key : Value} {old new : Stored}
    (conflict : old.kind ≠ .map ∨ new.kind ≠ .map) :
    bothMaps ⟨place, index, key, new, some old⟩ = false := by
  simp only [bothMaps, Option.any_some, Bool.and_eq_false_iff, decide_eq_false_iff_not]
  exact conflict.symm

theorem bothMaps_eq_true {place : List Nat} {index : Nat} {key : Value} {old new : Stored}
    (maps : ¬(old.kind ≠ .map ∨ new.kind ≠ .map)) :
    bothMaps ⟨place, index, key, new, some old⟩ = true := by
  simp only [ne_eq, not_or, not_not] at maps
  simp [bothMaps, maps]

theorem call?_of_conflict {answer : Value → Stored → Stored → Stored} {place : List Nat}
    {index : Nat} {key : Value} {old new : Stored}
    (conflict : old.kind ≠ .map ∨ new.kind ≠ .map) :
    call? answer ⟨place, index, key, new, some old⟩ =
      some ⟨key, new, old, answer key new old⟩ := by
  rw [call?, bothMaps_eq_false conflict]
  rfl

theorem call?_of_maps {answer : Value → Stored → Stored → Stored} {place : List Nat}
    {index : Nat} {key : Value} {old new : Stored}
    (maps : ¬(old.kind ≠ .map ∨ new.kind ≠ .map)) :
    call? answer ⟨place, index, key, new, some old⟩ = none := by
  rw [call?, bothMaps_eq_true maps]
  rfl

/-- Whether the entry is the one of this index at a place, or below that one. -/
def Under (place : List Nat) (i : Nat) (visit : Visit) : Prop :=
  ∃ below, visit.address = place ++ i :: below

theorem under_self (visit : Visit) : visit.Under visit.place visit.index := ⟨[], rfl⟩

theorem Under.lt {visit later : Visit} {place : List Nat} {i j : Nat} (under : visit.Under place i)
    (other : later.Under place j) (less : i < j) : visit.address < later.address := by
  obtain ⟨below, same⟩ := under
  obtain ⟨behind, same'⟩ := other
  rw [same, same']
  exact List.append_left_lt (List.cons_lt_cons_iff.mpr (.inl less))

theorem Under.place_ne {visit other : Visit} {place : List Nat} {i j : Nat}
    (under : visit.Under place i) (apart : other.Under place j) (different : i ≠ j) :
    visit.place ≠ other.address := by
  obtain ⟨below, same⟩ := under
  obtain ⟨behind, same'⟩ := apart
  intro inside
  rw [address, inside, same', List.append_assoc, List.append_cancel_left_eq, List.cons_append,
    List.cons.injEq] at same
  exact different same.1.symm

theorem Under.ne_address {visit : Visit} {place : List Nat} {i : Nat}
    (under : visit.Under place i) : place ≠ visit.address := by
  obtain ⟨below, same⟩ := under
  simp [same]

theorem Under.of_address {visit owner : Visit} {i : Nat} (under : visit.Under owner.address i) :
    visit.Under owner.place owner.index := by
  obtain ⟨below, same⟩ := under
  exact ⟨i :: below, by rw [same, address, List.append_assoc]; rfl⟩

theorem Under.lt_of_address {visit owner : Visit} {i : Nat} (under : visit.Under owner.address i) :
    owner.address < visit.address := by
  obtain ⟨below, same⟩ := under
  have less : owner.address ++ [] < owner.address ++ i :: below :=
    List.append_left_lt (List.nil_lt_cons i below)
  rwa [List.append_nil, ← same] at less

theorem Under.place_ne_of_address {visit owner : Visit} {i : Nat}
    (under : visit.Under owner.address i) : visit.place ≠ owner.place := by
  obtain ⟨below, same⟩ := under
  intro inside
  simp [address, inside] at same

end Visit

def entriesAt (visits : List Visit) (place : List Nat) : List (Value × Stored) :=
  (visits.filter fun visit => visit.place = place).map fun visit => (visit.key, visit.new)

theorem entriesAt_append (visits others : List Visit) (place : List Nat) :
    entriesAt (visits ++ others) place = entriesAt visits place ++ entriesAt others place := by
  simp [entriesAt]

theorem entriesAt_cons (visit : Visit) (visits : List Visit) (place : List Nat) :
    entriesAt (visit :: visits) place =
      (if visit.place = place then [(visit.key, visit.new)] else []) ++ entriesAt visits place := by
  by_cases here : visit.place = place <;> simp [entriesAt, here]

theorem entriesAt_eq_nil {visits : List Visit} {place : List Nat}
    (elsewhere : ∀ visit ∈ visits, visit.place ≠ place) : entriesAt visits place = [] := by
  rw [entriesAt, List.map_eq_nil_iff, List.filter_eq_nil_iff]
  simpa using elsewhere

/-- The visits go through the pairs, which stand at one place from an index on, depth first. Right
behind an entry come its own ones, all and in order, if a map comes in where a map is, and else
none. -/
structure DepthFirst (place : List Nat) (index : Nat) (pairs : List (Value × Stored))
    (visits : List Visit) : Prop where
  under : ∀ visit ∈ visits, ∃ i, index ≤ i ∧ visit.Under place i
  ordered : visits.Pairwise fun visit later => visit.address < later.address
  entriesAt_place : entriesAt visits place = pairs
  entriesAt_address : ∀ visit ∈ visits, entriesAt visits visit.address =
    if visit.bothMaps then (Source.stored visit.new).pairs else []

namespace DepthFirst

theorem nil (place : List Nat) (index : Nat) : DepthFirst place index [] [] where
  under := nofun
  ordered := .nil
  entriesAt_place := rfl
  entriesAt_address := nofun

theorem cons (visit : Visit) {rest : List (Value × Stored)} {below behind : List Visit}
    (inside : DepthFirst visit.address 0
      (if visit.bothMaps then (Source.stored visit.new).pairs else []) below)
    (next : DepthFirst visit.place (visit.index + 1) rest behind) :
    DepthFirst visit.place visit.index ((visit.key, visit.new) :: rest)
      (visit :: (below ++ behind)) := by
  have inner : ∀ v ∈ below, ∃ i, v.Under visit.address i := fun v member =>
    (inside.under v member).imp fun i => And.right
  refine ⟨?under, ?ordered, ?entriesAt_place, ?entriesAt_address⟩
  case under =>
    simp only [List.forall_mem_cons, List.forall_mem_append]
    refine ⟨⟨_, Nat.le_refl _, visit.under_self⟩, fun v member => ?_, fun v member => ?_⟩
    · obtain ⟨i, under⟩ := inner v member
      exact ⟨_, Nat.le_refl _, under.of_address⟩
    · obtain ⟨i, less, under⟩ := next.under v member
      exact ⟨i, Nat.le_of_lt less, under⟩
  case ordered =>
    refine List.pairwise_cons.mpr ⟨?_, List.pairwise_append.mpr ⟨inside.ordered, next.ordered, ?_⟩⟩
    · refine List.forall_mem_append.mpr ⟨fun v member => ?_, fun v member => ?_⟩
      · obtain ⟨i, under⟩ := inner v member
        exact under.lt_of_address
      · obtain ⟨i, less, under⟩ := next.under v member
        exact visit.under_self.lt under less
    · intro v member w later
      obtain ⟨i, under⟩ := inner v member
      obtain ⟨j, less, under'⟩ := next.under w later
      exact under.of_address.lt under' less
  case entriesAt_place =>
    have noneBelow : entriesAt below visit.place = [] := by
      refine entriesAt_eq_nil fun v member => ?_
      obtain ⟨i, under⟩ := inner v member
      exact under.place_ne_of_address
    rw [entriesAt_cons, if_pos rfl, entriesAt_append, noneBelow, next.entriesAt_place]
    rfl
  case entriesAt_address =>
    -- What is below the entry and what is behind it are at no place of one another.
    have noneBehind : ∀ v : Visit, v.Under visit.place visit.index →
        entriesAt behind v.address = [] := by
      refine fun v under => entriesAt_eq_nil fun w later => ?_
      obtain ⟨j, less, under'⟩ := next.under w later
      exact under'.place_ne under (Nat.ne_of_gt less)
    simp only [List.forall_mem_cons, List.forall_mem_append, entriesAt_cons, entriesAt_append]
    refine ⟨?_, fun v member => ?_, fun v member => ?_⟩
    · rw [if_neg visit.under_self.ne_address, inside.entriesAt_place,
        noneBehind visit visit.under_self, List.nil_append, List.append_nil]
    · obtain ⟨i, under⟩ := inner v member
      rw [if_neg under.of_address.ne_address, inside.entriesAt_address v member,
        noneBehind v under.of_address, List.nil_append, List.append_nil]
    · obtain ⟨j, less, under⟩ := next.under v member
      have noneBelow : entriesAt below v.address = [] := by
        refine entriesAt_eq_nil fun w earlier => ?_
        obtain ⟨i, under'⟩ := inner w earlier
        exact under'.of_address.place_ne under (Nat.ne_of_lt less)
      rw [if_neg under.ne_address, noneBelow, next.entriesAt_address v member, List.nil_append,
        List.nil_append]

theorem cons_of_leaf (visit : Visit) {rest : List (Value × Stored)} {behind : List Visit}
    (leaf : visit.bothMaps = false)
    (next : DepthFirst visit.place (visit.index + 1) rest behind) :
    DepthFirst visit.place visit.index ((visit.key, visit.new) :: rest) (visit :: behind) := by
  have inside : DepthFirst visit.address 0
      (if visit.bothMaps then (Source.stored visit.new).pairs else []) [] := by
    rw [leaf]
    exact nil _ _
  exact cons visit inside next

end DepthFirst

namespace KeyedMap

inductive Appends (key : Value) (s : Stored) : KeyedMap → KeyedMap → Prop
  | intro {entries : List (String × Value × Stored)}
      (absent : key.fingerprint ∉ entries.map Prod.fst) :
      Appends key s ⟨entries⟩ ⟨entries ++ [(key.fingerprint, key, s)]⟩

inductive Replaces (key : Value) (old s : Stored) : KeyedMap → KeyedMap → Prop
  | intro {front behind : List (String × Value × Stored)} {other : Value}
      (absent : key.fingerprint ∉ front.map Prod.fst) :
      Replaces key old s ⟨front ++ (key.fingerprint, other, old) :: behind⟩
        ⟨front ++ (key.fingerprint, key, s) :: behind⟩

theorem appends_iff {m n : KeyedMap} {key : Value} {s : Stored} :
    Appends key s m n ↔ m.find? key = none ∧ n = m.set key s := by
  constructor
  · rintro ⟨absent⟩
    refine ⟨?_, congrArg Table.mk (Table.put_of_not_mem absent _).symm⟩
    rw [find?, Table.get?, Table.find_eq_none absent, Option.map_none]
  · rintro ⟨found, rfl⟩
    obtain ⟨entries⟩ := m
    have absent : key.fingerprint ∉ entries.map Prod.fst := by
      intro member
      have some := Table.isSome_get?_iff (t := ⟨entries⟩).mpr member
      rw [Option.map_eq_none_iff.mp found] at some
      cases some
    rw [set, Table.insert, Table.put_of_not_mem absent]
    exact ⟨absent⟩

theorem replaces_iff {m n : KeyedMap} {key : Value} {old s : Stored} :
    Replaces key old s m n ↔ m.find? key = some old ∧ n = m.set key s := by
  constructor
  · rintro ⟨absent⟩
    refine ⟨?_, congrArg Table.mk (Table.put_behind absent _ _ _).symm⟩
    rw [find?, Table.get?, Table.find_behind absent, Option.map_some]
  · rintro ⟨found, rfl⟩
    obtain ⟨entries⟩ := m
    obtain ⟨⟨other, held⟩, there, rfl⟩ := Option.map_eq_some_iff.mp found
    obtain ⟨front, behind, rfl, absent⟩ := Table.exists_of_find there
    rw [set, Table.insert, Table.put_behind absent]
    exact ⟨absent⟩

/-- One update with its visits. Entries come in one by one, each into the map as the ones before it
have left it: one of a new key as it is, a map for a map by its own entries, and in all else what is
answered. -/
inductive Merges (answer : Value → Stored → Stored → Stored) :
    List Nat → Nat → KeyedMap → List (Value × Stored) → List Visit → KeyedMap → Prop
  | done (place : List Nat) (index : Nat) (m : KeyedMap) : Merges answer place index m [] [] m
  | enters {place : List Nat} {index : Nat} {m n merged : KeyedMap} {key : Value} {new : Stored}
      {rest : List (Value × Stored)} {visits : List Visit}
      (stores : Appends key new m n)
      (next : Merges answer place (index + 1) n rest visits merged) :
      Merges answer place index m ((key, new) :: rest)
        (⟨place, index, key, new, none⟩ :: visits) merged
  | descends {place : List Nat} {index : Nat} {m n held inner merged : KeyedMap} {key : Value}
      {old new : Stored} {pairs rest : List (Value × Stored)} {below visits : List Visit}
      (isMap : old.keyedMap? = some held) (comesIn : new.pairs? = some pairs)
      (inside : Merges answer (place ++ [index]) 0 held pairs below inner)
      (stores : Replaces key old (.nested inner) m n)
      (next : Merges answer place (index + 1) n rest visits merged) :
      Merges answer place index m ((key, new) :: rest)
        (⟨place, index, key, new, some old⟩ :: (below ++ visits)) merged
  | asks {place : List Nat} {index : Nat} {m n merged : KeyedMap} {key : Value} {old new : Stored}
      {rest : List (Value × Stored)} {visits : List Visit}
      (conflict : old.kind ≠ .map ∨ new.kind ≠ .map)
      (stores : Replaces key old (answer key new old) m n)
      (next : Merges answer place (index + 1) n rest visits merged) :
      Merges answer place index m ((key, new) :: rest)
        (⟨place, index, key, new, some old⟩ :: visits) merged

theorem conflict_iff {old new : Stored} :
    old.keyedMap? = none ∨ new.pairs? = none ↔ old.kind ≠ .map ∨ new.kind ≠ .map := by
  rw [Stored.keyedMap?_eq_none_iff_kind, Stored.pairs?_eq_none_iff_kind]

theorem not_conflict {old new : Stored} {held : KeyedMap} {pairs : List (Value × Stored)}
    (isMap : old.keyedMap? = some held) (comesIn : new.pairs? = some pairs) :
    ¬(old.kind ≠ .map ∨ new.kind ≠ .map) := by
  rw [← conflict_iff, isMap, comesIn]
  simp

namespace Merges

variable {answer : Value → Stored → Stored → Stored} {place : List Nat} {index : Nat}
  {m merged merged' : KeyedMap} {pairs : List (Value × Stored)} {visits visits' : List Visit}

theorem depthFirst (merges : Merges answer place index m pairs visits merged) :
    DepthFirst place index pairs visits := by
  induction merges with
  | done place index m => exact .nil place index
  | @enters place index _ _ _ key new _ _ _ _ ih =>
    refine DepthFirst.cons_of_leaf ⟨place, index, key, new, none⟩ ?_ ih
    exact Bool.and_false _
  | @descends place index _ _ _ _ _ key old new _ _ _ _ isMap comesIn _ _ _ below ih =>
    refine DepthFirst.cons ⟨place, index, key, new, some old⟩ ?_ ih
    rw [if_pos (Visit.bothMaps_eq_true (not_conflict isMap comesIn)), Source.pairs, comesIn]
    exact below
  | @asks place index _ _ _ key old new _ _ conflict _ _ ih =>
    exact DepthFirst.cons_of_leaf ⟨place, index, key, new, some old⟩
      (Visit.bothMaps_eq_false conflict) ih

/-- What is visited and what becomes of the map is determined. -/
theorem unique (merges : Merges answer place index m pairs visits merged)
    (others : Merges answer place index m pairs visits' merged') :
    visits' = visits ∧ merged' = merged := by
  induction merges generalizing visits' merged' with
  | done =>
    cases others
    exact ⟨rfl, rfl⟩
  | enters stores next ih =>
    obtain ⟨absent, rfl⟩ := appends_iff.mp stores
    cases others with
    | enters stores' next' =>
      obtain ⟨-, rfl⟩ := appends_iff.mp stores'
      obtain ⟨rfl, rfl⟩ := ih next'
      exact ⟨rfl, rfl⟩
    | descends _ _ _ stores' => cases absent.symm.trans (replaces_iff.mp stores').1
    | asks _ stores' => cases absent.symm.trans (replaces_iff.mp stores').1
  | descends isMap comesIn inside stores next below ih =>
    obtain ⟨found, rfl⟩ := replaces_iff.mp stores
    cases others with
    | enters stores' => cases (appends_iff.mp stores').1.symm.trans found
    | descends isMap' comesIn' inside' stores' next' =>
      obtain ⟨found', rfl⟩ := replaces_iff.mp stores'
      obtain rfl := Option.some.inj (found.symm.trans found')
      obtain rfl := Option.some.inj (isMap.symm.trans isMap')
      obtain rfl := Option.some.inj (comesIn.symm.trans comesIn')
      obtain ⟨rfl, rfl⟩ := below inside'
      obtain ⟨rfl, rfl⟩ := ih next'
      exact ⟨rfl, rfl⟩
    | asks conflict stores' =>
      obtain rfl := Option.some.inj (found.symm.trans (replaces_iff.mp stores').1)
      exact absurd conflict (not_conflict isMap comesIn)
  | asks conflict stores next ih =>
    obtain ⟨found, rfl⟩ := replaces_iff.mp stores
    cases others with
    | enters stores' => cases (appends_iff.mp stores').1.symm.trans found
    | descends isMap comesIn _ stores' =>
      obtain rfl := Option.some.inj (found.symm.trans (replaces_iff.mp stores').1)
      exact absurd conflict (not_conflict isMap comesIn)
    | asks _ stores' next' =>
      obtain ⟨found', rfl⟩ := replaces_iff.mp stores'
      obtain rfl := Option.some.inj (found.symm.trans found')
      obtain ⟨rfl, rfl⟩ := ih next'
      exact ⟨rfl, rfl⟩

end Merges

def answering (answer : Value → Stored → Stored → Stored) : Resolver (StateM Unit) :=
  fun key new old => pure (answer key new old)

/-- Both computations have the result, and the recorded one makes these calls for it. -/
structure Makes (recorded : StateM (Unit × List Call) α) (plain : StateM Unit α)
    (calls : List Call) (a : α) : Prop where
  plain_run : plain.run () = (a, ())
  recorded_run : ∀ before, recorded.run ((), before) = (a, (), before ++ calls)

namespace Makes

variable {recorded : StateM (Unit × List Call) α} {plain : StateM Unit α} {calls more : List Call}
  {a : α} {b : β}

theorem pure (a : α) : Makes (Pure.pure a) (Pure.pure a) [] a where
  plain_run := rfl
  recorded_run before := by
    rw [List.append_nil]
    rfl

theorem bind {f : α → StateM (Unit × List Call) β} {g : α → StateM Unit β}
    (first : Makes recorded plain calls a) (next : Makes (f a) (g a) more b) :
    Makes (recorded >>= f) (plain >>= g) (calls ++ more) b where
  plain_run := by rw [StateT.run_bind, first.plain_run]; exact next.plain_run
  recorded_run before := by
    rw [StateT.run_bind, first.recorded_run, ← List.append_assoc]
    exact next.recorded_run _

theorem map (f : α → β) (made : Makes recorded plain calls a) :
    Makes (f <$> recorded) (f <$> plain) calls (f a) := by
  rw [map_eq_pure_bind, map_eq_pure_bind, ← List.append_nil calls]
  exact made.bind (pure (f a))

theorem call (answer : Value → Stored → Stored → Stored) (key : Value) (new old : Stored) :
    Makes ((answering answer).recorded key new old) (answering answer key new old)
      [⟨key, new, old, answer key new old⟩] (answer key new old) where
  plain_run := rfl
  recorded_run _ := rfl

end Makes

theorem exists_merges (answer : Value → Stored → Stored → Stored) (m : KeyedMap)
    (pairs : List (Value × Stored)) (place : List Nat) (index : Nat) :
    ∃ visits merged, Merges answer place index m pairs visits merged ∧
      Makes (m.mergeDeep (answering answer).recorded pairs) (m.mergeDeep (answering answer) pairs)
        (visits.filterMap (Visit.call? answer)) merged := by
  induction m, pairs using mergeDeep.induct generalizing place index with
  | case1 m =>
    rw [mergeDeep_nil, mergeDeep_nil]
    exact ⟨[], m, .done place index m, Makes.pure m⟩
  | case2 m key new rest below ih =>
    rw [mergeDeep_cons, mergeDeep_cons]
    cases found : m.find? key with
    | none =>
      obtain ⟨visits, merged, merges, makes⟩ := ih new place (index + 1)
      rw [mergedValue_of_absent _ found, mergedValue_of_absent _ found]
      exact ⟨_, merged, .enters (appends_iff.mpr ⟨found, rfl⟩) merges, (Makes.pure new).bind makes⟩
    | some old =>
      by_cases conflict : old.keyedMap? = none ∨ new.pairs? = none
      · obtain ⟨visits, merged, merges, makes⟩ := ih (answer key new old) place (index + 1)
        rw [mergedValue_of_conflict _ found conflict, mergedValue_of_conflict _ found conflict]
        have differ := conflict_iff.mp conflict
        refine ⟨_, merged, .asks differ (replaces_iff.mpr ⟨found, rfl⟩) merges, ?_⟩
        rw [List.filterMap_cons_some (Visit.call?_of_conflict differ)]
        exact (Makes.call answer key new old).bind makes
      · simp only [not_or, Option.ne_none_iff_exists'] at conflict
        obtain ⟨⟨held, isMap⟩, pairs, comesIn⟩ := conflict
        obtain ⟨own, inner, inside, makesInside⟩ :=
          below held pairs comesIn (place ++ [index]) 0
        obtain ⟨visits, merged, merges, makes⟩ := ih (.nested inner) place (index + 1)
        rw [mergedValue_of_maps _ found isMap comesIn, mergedValue_of_maps _ found isMap comesIn]
        refine ⟨_, merged,
          .descends isMap comesIn inside (replaces_iff.mpr ⟨found, rfl⟩) merges, ?_⟩
        rw [List.filterMap_cons_none (Visit.call?_of_maps (not_conflict isMap comesIn)),
          List.filterMap_append]
        exact (makesInside.map Stored.nested).bind makes

theorem mergeDeep_eq_mergeFlat {M : Type → Type} [Monad M] (resolve : Resolver M) (m : KeyedMap)
    {pairs : List (Value × Stored)} (flat : ∀ pair ∈ pairs, pair.2.kind ≠ .map) :
    m.mergeDeep resolve pairs = m.mergeFlat resolve pairs := by
  induction pairs generalizing m with
  | nil => rw [mergeDeep_nil, mergeFlat]
  | cons pair rest ih =>
    obtain ⟨first, others⟩ := List.forall_mem_cons.mp flat
    have none : pair.2.pairs? = none := Stored.pairs?_eq_none_iff_kind.mpr first
    rw [mergeDeep_cons, mergeFlat]
    congr 1
    · cases found : m.find? pair.1 with
      | none => exact mergedValue_of_absent resolve found _
      | some old => exact mergedValue_of_conflict resolve found (.inr none)
    · funext value
      exact ih _ others

/-- A deep update comes to the entries of its source depth first and in order, and goes into one
exactly if a map comes in where a map is. It asks once about each that it comes to under a key that
holds something, unless both are maps, and about no other; the answer is stored where the old value
was. Where no map comes in, it is the flat update. -/
theorem deepUpdateWith_visits (answer : Value → Stored → Stored → Stored) (m : KeyedMap)
    (source : Source) :
    let deep : Step := .deepUpdateWith (answering answer) () source
    let flat : Step := .updateWith (answering answer) () source
    (∃ visits : List Visit,
      (∀ others merged, Merges answer [] 0 m source.pairs others merged ↔
        others = visits ∧ merged = deep.apply m) ∧
      DepthFirst [] 0 source.pairs visits ∧
      deep.calls m = visits.filterMap (Visit.call? answer)) ∧
    ((∀ pair ∈ source.pairs, pair.2.kind ≠ .map) →
      deep.apply m = flat.apply m ∧ deep.calls m = flat.calls m) := by
  intro deep flat
  constructor
  · obtain ⟨visits, merged, merges, makes⟩ := exists_merges answer m source.pairs [] 0
    have result : deep.apply m = merged := congrArg Prod.fst makes.plain_run
    refine ⟨visits, fun others other => ⟨fun also => ?_, ?_⟩, merges.depthFirst, ?_⟩
    · rw [result]
      exact merges.unique also
    · rintro ⟨rfl, rfl⟩
      rw [result]
      exact merges
    · exact congrArg (fun run => run.2.2) (makes.recorded_run [])
  · intro noMaps
    dsimp only [deep, flat, Step.apply, Step.calls]
    rw [mergeDeep_eq_mergeFlat _ m noMaps, mergeDeep_eq_mergeFlat _ m noMaps]
    exact ⟨rfl, rfl⟩

def wrapped (old : Stored) : Stored := .nested (ofPairs [(.string "was", old)])

def panel : KeyedMap :=
  .ofEntries [(.string "box", .map [(.string "gap", .null)]), (.string "on", .bool true)]

def panelSource : Source :=
  .mapValue [(.string "box", .map [(.string "pad", .null), (.string "gap", .bool true)]),
    (.string "on", .null), (.string "on", .map [(.string "was", .bool false)])]

def plainSource : Source :=
  .mapValue [(.string "on", .null), (.string "on", .bool false)]

theorem deepUpdateWith_visits_panel :
    (Step.deepUpdateWith (answering fun _ _ => wrapped) () panelSource).calls panel =
      [⟨.string "gap", .tagged (.bool true), .tagged .null, wrapped (.tagged .null)⟩,
        ⟨.string "on", .tagged .null, .tagged (.bool true), wrapped (.tagged (.bool true))⟩,
        ⟨.string "was", .tagged (.bool false), .tagged (.bool true),
          wrapped (.tagged (.bool true))⟩] ∧
    (∀ pair ∈ plainSource.pairs, pair.2.kind ≠ .map) ∧
      (Step.deepUpdateWith (answering fun _ _ => wrapped) () plainSource).apply panel =
        (Step.updateWith (answering fun _ _ => wrapped) () plainSource).apply panel ∧
      (Step.deepUpdateWith (answering fun _ _ => wrapped) () plainSource).calls panel =
        (Step.updateWith (answering fun _ _ => wrapped) () plainSource).calls panel := by
  have plain : ∀ pair ∈ plainSource.pairs, pair.2.kind ≠ .map := by
    simp [plainSource, Source.pairs, tagEntries, Stored.kind, Value.kind]
  obtain ⟨visits, only, -, calls⟩ :=
    (deepUpdateWith_visits (fun _ _ => wrapped) panel panelSource).1
  have merges := (only _ _).mp (.descends rfl rfl
    (.enters (appends_iff.mpr ⟨rfl, rfl⟩)
      (.asks (.inl (by decide)) (replaces_iff.mpr ⟨rfl, rfl⟩) (.done _ _ _)))
    (replaces_iff.mpr ⟨rfl, rfl⟩)
    (.asks (.inl (by decide)) (replaces_iff.mpr ⟨rfl, rfl⟩)
      (.descends rfl rfl
        (.asks (.inl (by decide)) (replaces_iff.mpr ⟨rfl, rfl⟩) (.done _ _ _))
        (replaces_iff.mpr ⟨rfl, rfl⟩) (.done _ _ _))))
  rw [calls, ← merges.1]
  exact ⟨rfl, plain, (deepUpdateWith_visits _ panel plainSource).2 plain⟩

end KeyedMap

end StyleValues
