import Mathlib.Data.List.Forall2
import StyleValues.Proofs.Text.Runs
import StyleValues.Value.Kind

/-! Texts that tell the structure of a value. Where nothing in the text of a leaf is a mark of a
list or a map, the whole is the text of one shape only, and of one value if its leaves are strings.
-/

namespace StyleValues

theorem Kind.name_injective : Function.Injective Kind.name := by
  intro kind other same
  have back := congrArg Kind.ofName? same
  rwa [Kind.ofName?_name, Kind.ofName?_name, Option.some.injEq] at back

namespace Value

theorem fingerprint_eq_iff {v w : Value} :
    v.fingerprint = w.fingerprint ↔ v.kind = w.kind ∧ v.text = w.text := by
  have split (v : Value) : v.fingerprint.toList.takeWhile (· != ':') = v.kind.name.toList ∧
      v.fingerprint.toList.dropWhile (· != ':') = ':' :: v.text.toList := by
    have form : v.fingerprint.toList = v.kind.name.toList ++ ':' :: v.text.toList := by
      simp [fingerprint]
    rw [form]
    apply Text.takeWhile_append
    · cases v.kind <;> simp [Kind.name]
    · simp
  constructor
  · intro same
    have name := (split v).1
    have text := (split v).2
    rw [same, (split w).1] at name
    rw [same, (split w).2] at text
    exact ⟨Kind.name_injective (String.toList_inj.mp name.symm),
      String.toList_inj.mp (List.cons.inj text.symm).2⟩
  · rintro ⟨kind, text⟩
    rw [fingerprint, fingerprint, kind, text]

def isMark (c : Char) : Bool :=
  c == '(' || c == ')' || c == ',' || c == ':' || c == ' '

/-- A leaf with a text that is not empty and has no mark in it. -/
structure Bare (v : Value) : Prop where
  kind_mem : v.kind ∈ [.string, .number, .bool, .null, .error]
  some : v.text ≠ ""
  unmarked : ∀ c ∈ v.text.toList, isMark c = false

def BareString (v : Value) : Prop := v.Bare ∧ v.kind = .string

/-- Built from leaves by lists and maps, none of them empty. -/
inductive BuiltFrom (leaf : Value → Prop) : Value → Prop
  | leaf {v : Value} (isLeaf : leaf v) : BuiltFrom leaf v
  | list {v : Value} {rest : List Value} {separator : Separator}
      (inner : ∀ item ∈ v :: rest, BuiltFrom leaf item) :
      BuiltFrom leaf (.list (v :: rest) separator)
  | map {e : Value × Value} {rest : List (Value × Value)}
      (keys : ∀ entry ∈ e :: rest, BuiltFrom leaf entry.1)
      (values : ∀ entry ∈ e :: rest, BuiltFrom leaf entry.2) :
      BuiltFrom leaf (.map (e :: rest))

/-- The same lists and maps, with leaves of the same texts. -/
inductive SameShape (leaf : Value → Prop) : Value → Value → Prop
  | leaf {v w : Value} (isLeaf : leaf v) (isLeaf' : leaf w) (text_eq : v.text = w.text) :
      SameShape leaf v w
  | list {items others : List Value} {separator : Separator}
      (length_eq : items.length = others.length)
      (inner : ∀ pair ∈ items.zip others, SameShape leaf pair.1 pair.2) :
      SameShape leaf (.list items separator) (.list others separator)
  | map {entries others : List (Value × Value)} (length_eq : entries.length = others.length)
      (keys : ∀ pair ∈ entries.zip others, SameShape leaf pair.1.1 pair.2.1)
      (values : ∀ pair ∈ entries.zip others, SameShape leaf pair.1.2 pair.2.2) :
      SameShape leaf (.map entries) (.map others)

def Stops (cs : List Char) : Prop := ∀ c ∈ cs.head?, isMark c = true

theorem stops_cons {c : Char} (mark : isMark c) (cs : List Char) : Stops (c :: cs) := by
  intro d first
  rwa [← Option.some.inj first]

section Rows

variable {α : Type} (text : α → List Char) (lead : List Char)

def row (items : List α) : List Char :=
  items.flatMap fun a => lead ++ text a

/-- Where the texts of two items are followed by marks, no other item and no other end can be read
from the same characters. -/
def Splits (R : α → α → Prop) (a b : α) : Prop :=
  ∀ r s, Stops r → Stops s → text a ++ r = text b ++ s → R a b ∧ r = s

variable {text lead} {R : α → α → Prop} {c : Char} {after : List Char}

theorem stops_row (leads : lead = c :: after) (mark : isMark c) (items : List α) (r : List Char) :
    Stops (row text lead items ++ ')' :: r) := by
  cases items with
  | nil => exact stops_cons rfl r
  | cons a rest =>
    rw [row, List.flatMap_cons, leads]
    exact stops_cons mark _

theorem forall₂_of_row (leads : lead = c :: after) (mark : isMark c) (goesOn : c ≠ ')')
    {items others : List α} (each : ∀ a ∈ items, ∀ b ∈ others, Splits text R a b) {r s : List Char}
    (same : row text lead items ++ ')' :: r = row text lead others ++ ')' :: s) :
    List.Forall₂ R items others ∧ r = s := by
  induction items generalizing others with
  | nil =>
    cases others with
    | nil => exact ⟨.nil, by simpa [row] using same⟩
    | cons b others => simp [row, leads, Ne.symm goesOn] at same
  | cons a rest ih =>
    cases others with
    | nil => simp [row, leads, goesOn] at same
    | cons b others =>
      have here : text a ++ (row text lead rest ++ ')' :: r) =
          text b ++ (row text lead others ++ ')' :: s) := by
        simpa [row] using same
      obtain ⟨first, behind⟩ := each a List.mem_cons_self b List.mem_cons_self _ _
        (stops_row leads mark rest r) (stops_row leads mark others s) here
      obtain ⟨matching, ends⟩ := ih (fun a ha b hb => each a (List.mem_cons_of_mem _ ha) b
        (List.mem_cons_of_mem _ hb)) behind
      exact ⟨.cons first matching, ends⟩

theorem splits_of_ne {a b : α} (apart : ∀ r s, text a ++ r ≠ text b ++ s) : Splits text R a b :=
  fun r s _ _ same => absurd same (apart r s)

end Rows

section Characters

theorem toList_joined_cons (separator text : String) (rest : List String) :
    (Text.joined separator (text :: rest)).toList =
      text.toList ++ row String.toList separator.toList rest := by
  induction rest generalizing text with
  | nil => simp [row]
  | cons next rest ih =>
    rw [Text.joined_cons_cons, String.toList_append, String.toList_append, ih]
    simp [row]

def chars (v : Value) : List Char := v.text.toList

def entryChars (entry : Value × Value) : List Char :=
  entry.1.chars ++ ':' :: ' ' :: entry.2.chars

def listRest (separator : Separator) (rest : List Value) : List Char :=
  row chars separator.text.toList rest ++
    if rest = [] ∧ separator = .comma then [',', ')'] else [')']

theorem chars_list (v : Value) (rest : List Value) (separator : Separator) :
    (Value.list (v :: rest) separator).chars = '(' :: (v.chars ++ listRest separator rest) := by
  rw [chars, text, listText, itemTexts_eq_map, List.map_cons, String.toList_append,
    String.toList_append, toList_joined_cons, listRest, row, List.flatMap_map]
  cases rest with
  | nil => cases separator <;> simp [chars, row]
  | cons w rest => simp [chars, row]

theorem chars_map (entry : Value × Value) (rest : List (Value × Value)) :
    (Value.map (entry :: rest)).chars =
      '(' :: (entryChars entry ++ row entryChars [',', ' '] rest ++ [')']) := by
  rw [chars, text, mapText, entryTexts_eq_map, List.map_cons, List.map_cons,
    String.toList_append, String.toList_append, toList_joined_cons, row, List.flatMap_map]
  simp [entryChars, chars, row, List.flatMap_map]

theorem listRest_nil_comma : listRest .comma [] = [',', ')'] := rfl

theorem listRest_cons_comma (v : Value) (rest : List Value) :
    listRest .comma (v :: rest) = row chars [',', ' '] (v :: rest) ++ [')'] := rfl

theorem listRest_space (rest : List Value) :
    listRest .space rest = row chars [' '] rest ++ [')'] := by
  simp [listRest, Separator.text]

theorem exists_listRest (separator : Separator) (rest : List Value) :
    ∃ c after, listRest separator rest = c :: after ∧ isMark c ∧ c ≠ ':' ∧
      (c = ',' ↔ separator = .comma) := by
  cases separator with
  | comma =>
    cases rest with
    | nil => exact ⟨',', _, listRest_nil_comma, by simp [isMark]⟩
    | cons v rest => exact ⟨',', _, listRest_cons_comma v rest, by simp [isMark]⟩
  | space =>
    cases rest with
    | nil => exact ⟨')', _, listRest_space [], by simp [isMark]⟩
    | cons v rest => exact ⟨' ', _, listRest_space (v :: rest), by simp [isMark]⟩

theorem stops_listRest (separator : Separator) (rest : List Value) (r : List Char) :
    Stops (listRest separator rest ++ r) := by
  obtain ⟨c, after, form, mark, -⟩ := exists_listRest separator rest
  rw [form]
  exact stops_cons mark _

theorem listRest_ne_colon (separator : Separator) (rest : List Value) (r s : List Char) :
    listRest separator rest ++ r ≠ ':' :: s := by
  obtain ⟨c, after, form, -, other, -⟩ := exists_listRest separator rest
  rw [form]
  exact fun same => other (List.cons.inj same).1

theorem separator_eq_of_listRest {separator separator' : Separator} {rest others : List Value}
    {r s : List Char} (same : listRest separator rest ++ r = listRest separator' others ++ s) :
    separator = separator' := by
  obtain ⟨c, after, form, -, -, comma⟩ := exists_listRest separator rest
  obtain ⟨c', after', form', -, -, comma'⟩ := exists_listRest separator' others
  rw [form, form'] at same
  rw [(List.cons.inj same).1, comma'] at comma
  cases separator <;> cases separator' <;> simp at comma ⊢

theorem Bare.takeWhile_append {v : Value} (bare : v.Bare) {r : List Char} (stops : Stops r) :
    (v.chars ++ r).takeWhile (!isMark ·) = v.chars ∧ (v.chars ++ r).dropWhile (!isMark ·) = r := by
  apply Text.takeWhile_append
  · intro c member
    rw [bare.unmarked c member]
    rfl
  · intro c first
    rw [stops c first]
    rfl

theorem Bare.append_ne {v w : Value} (bare : v.Bare) (opens : ∃ after, w.chars = '(' :: after)
    (r s : List Char) : v.chars ++ r ≠ w.chars ++ s := by
  obtain ⟨after, opens⟩ := opens
  rw [opens]
  cases form : v.chars with
  | nil => exact absurd (String.toList_eq_nil_iff.mp form) bare.some
  | cons c behind =>
    intro same
    have unmarked := bare.unmarked c (by rw [← chars, form]; exact List.mem_cons_self)
    rw [(List.cons.inj same).1] at unmarked
    cases unmarked

theorem chars_list_ne_chars_map {v : Value} {rest : List Value} (separator : Separator)
    {e : Value × Value} {others : List (Value × Value)}
    (first : ∀ r s, Stops r → Stops s → v.chars ++ r = e.1.chars ++ s → r = s) (r s : List Char) :
    (Value.list (v :: rest) separator).chars ++ r ≠ (Value.map (e :: others)).chars ++ s := by
  intro same
  rw [chars_list, chars_map] at same
  have behind := first (listRest separator rest ++ r)
    (':' :: ' ' :: (e.2.chars ++ (row entryChars [',', ' '] others ++ ')' :: s)))
    (stops_listRest _ _ _) (stops_cons rfl _) (by simpa [entryChars] using same)
  exact listRest_ne_colon separator rest r _ behind

end Characters

section Matching

variable {leaf : Value → Prop}

/-- What follows the first items of two lists tells all other items. -/
theorem forall₂_of_listRest {separator : Separator} {rest others : List Value}
    (each : ∀ v ∈ rest, ∀ w ∈ others, Splits chars (SameShape leaf) v w) {r s : List Char}
    (same : listRest separator rest ++ r = listRest separator others ++ s) :
    List.Forall₂ (SameShape leaf) rest others ∧ r = s := by
  cases separator with
  | space =>
    rw [listRest_space, listRest_space, List.append_assoc, List.append_assoc] at same
    exact forall₂_of_row rfl rfl (by decide) each same
  | comma =>
    cases rest with
    | nil =>
      cases others with
      | nil => exact ⟨.nil, by simpa [listRest_nil_comma] using same⟩
      | cons w others => simp [listRest_nil_comma, listRest_cons_comma, row] at same
    | cons v rest =>
      cases others with
      | nil => simp [listRest_nil_comma, listRest_cons_comma, row] at same
      | cons w others =>
        rw [listRest_cons_comma, listRest_cons_comma, List.append_assoc,
          List.append_assoc] at same
        exact forall₂_of_row rfl rfl (by decide) each same

theorem splits_list {v w : Value} {rest others : List Value} {separator separator' : Separator}
    (each : ∀ a ∈ v :: rest, ∀ b ∈ w :: others, Splits chars (SameShape leaf) a b) :
    Splits chars (SameShape leaf) (.list (v :: rest) separator)
      (.list (w :: others) separator') := by
  intro r s stopsR stopsS same
  rw [chars_list, chars_list] at same
  obtain ⟨first, behind⟩ := each v List.mem_cons_self w List.mem_cons_self
    (listRest separator rest ++ r) (listRest separator' others ++ s) (stops_listRest _ _ _)
    (stops_listRest _ _ _) (by simpa using same)
  obtain rfl := separator_eq_of_listRest behind
  obtain ⟨matching, rfl⟩ := forall₂_of_listRest (fun a ha b hb =>
    each a (List.mem_cons_of_mem _ ha) b (List.mem_cons_of_mem _ hb)) behind
  obtain ⟨length_eq, inner⟩ := List.forall₂_iff_zip.mp (List.Forall₂.cons first matching)
  exact ⟨.list length_eq fun pair member => inner member, rfl⟩

theorem splits_entry {a b : Value × Value} (key : Splits chars (SameShape leaf) a.1 b.1)
    (value : Splits chars (SameShape leaf) a.2 b.2) :
    Splits entryChars (fun a b => SameShape leaf a.1 b.1 ∧ SameShape leaf a.2 b.2) a b := by
  intro r s stopsR stopsS same
  obtain ⟨keys, behind⟩ := key (':' :: ' ' :: (a.2.chars ++ r)) (':' :: ' ' :: (b.2.chars ++ s))
    (stops_cons rfl _) (stops_cons rfl _) (by simpa [entryChars] using same)
  obtain ⟨values, ends⟩ := value r s stopsR stopsS (by simpa using behind)
  exact ⟨⟨keys, values⟩, ends⟩

theorem splits_map {e f : Value × Value} {rest others : List (Value × Value)}
    (keys : ∀ a ∈ e :: rest, ∀ b ∈ f :: others, Splits chars (SameShape leaf) a.1 b.1)
    (values : ∀ a ∈ e :: rest, ∀ b ∈ f :: others, Splits chars (SameShape leaf) a.2 b.2) :
    Splits chars (SameShape leaf) (.map (e :: rest)) (.map (f :: others)) := by
  intro r s stopsR stopsS same
  rw [chars_map, chars_map] at same
  have each (a) (ha : a ∈ e :: rest) (b) (hb : b ∈ f :: others) :=
    splits_entry (keys a ha b hb) (values a ha b hb)
  obtain ⟨first, behind⟩ := each e List.mem_cons_self f List.mem_cons_self
    (row entryChars [',', ' '] rest ++ ')' :: r) (row entryChars [',', ' '] others ++ ')' :: s)
    (stops_row rfl rfl _ _) (stops_row rfl rfl _ _) (by simpa using same)
  obtain ⟨matching, rfl⟩ := forall₂_of_row rfl rfl (by decide) (fun a ha b hb =>
    each a (List.mem_cons_of_mem _ ha) b (List.mem_cons_of_mem _ hb)) behind
  have all : List.Forall₂ (fun a b => SameShape leaf a.1 b.1 ∧ SameShape leaf a.2 b.2) (e :: rest)
      (f :: others) := .cons first matching
  obtain ⟨length_eq, inner⟩ := List.forall₂_iff_zip.mp all
  exact ⟨.map length_eq (fun pair member => (inner member).1) fun pair member => (inner member).2,
    rfl⟩

theorem splits_leaf (bare : ∀ v, leaf v → v.Bare) {v w : Value} (first : leaf v)
    (second : leaf w) : Splits chars (SameShape leaf) v w := by
  intro r s stopsR stopsS same
  have front := (bare v first).takeWhile_append stopsR
  rw [same, ((bare w second).takeWhile_append stopsS).1,
    ((bare w second).takeWhile_append stopsS).2] at front
  exact ⟨.leaf first second (String.toList_inj.mp front.1.symm), front.2.symm⟩

/-- Where a value ends in front of a mark, and what its shape is, is told by its characters. -/
theorem splits_of_builtFrom (bare : ∀ v, leaf v → v.Bare) {v w : Value} (first : v.BuiltFrom leaf)
    (second : w.BuiltFrom leaf) : Splits chars (SameShape leaf) v w := by
  induction first generalizing w with
  | leaf isLeaf =>
    have apart {w : Value} := (bare _ isLeaf).append_ne (w := w)
    cases second with
    | leaf isLeaf' => exact splits_leaf bare isLeaf isLeaf'
    | list => exact splits_of_ne (apart ⟨_, chars_list ..⟩)
    | map => exact splits_of_ne (apart ⟨_, chars_map ..⟩)
  | list inner ih =>
    cases second with
    | leaf isLeaf =>
      exact splits_of_ne fun r s => ((bare _ isLeaf).append_ne ⟨_, chars_list ..⟩ s r).symm
    | list inner' => exact splits_list fun a ha b hb => ih a ha (inner' b hb)
    | map keys values =>
      have key := ih _ List.mem_cons_self (keys _ List.mem_cons_self)
      exact splits_of_ne (chars_list_ne_chars_map _ fun r s hr hs same => (key r s hr hs same).2)
  | map keys values ihKeys ihValues =>
    cases second with
    | leaf isLeaf =>
      exact splits_of_ne fun r s => ((bare _ isLeaf).append_ne ⟨_, chars_map ..⟩ s r).symm
    | list inner =>
      have key := ihKeys _ List.mem_cons_self (inner _ List.mem_cons_self)
      exact splits_of_ne fun r s => (chars_list_ne_chars_map _
        (fun r s hr hs same => (key s r hs hr same.symm).2.symm) s r).symm
    | map keys' values' =>
      exact splits_map (fun a ha b hb => ihKeys a ha (keys' b hb))
        fun a ha b hb => ihValues a ha (values' b hb)

theorem sameShape_of_text_eq (bare : ∀ v, leaf v → v.Bare) {v w : Value} (first : v.BuiltFrom leaf)
    (second : w.BuiltFrom leaf) (same : v.text = w.text) : SameShape leaf v w :=
  (splits_of_builtFrom bare first second [] [] nofun nofun (by rw [chars, chars, same])).1

theorem eq_of_zip {items others : List α} (length_eq : items.length = others.length)
    (each : ∀ pair ∈ items.zip others, pair.1 = pair.2) : items = others := by
  rw [← List.forall₂_eq_eq_eq, List.forall₂_iff_zip]
  exact ⟨length_eq, fun member => each _ member⟩

theorem SameShape.eq (leaves : ∀ v w, leaf v → leaf w → v.text = w.text → v = w) {v w : Value}
    (same : SameShape leaf v w) : v = w := by
  induction same with
  | leaf first second text_eq => exact leaves _ _ first second text_eq
  | list length_eq _ ih => rw [eq_of_zip length_eq ih]
  | map length_eq _ _ ihKeys ihValues =>
    rw [eq_of_zip length_eq fun pair member =>
      Prod.ext (ihKeys pair member) (ihValues pair member)]

theorem BareString.eq_string {v : Value} (bare : v.BareString) : v = .string v.text := by
  cases v with
  | string text => rfl
  | _ => cases bare.2

end Matching

/-- Values with one text are of one shape, if they are built from leaves without marks and neither
lists nor maps are empty. If their leaves are strings, they are one key only if they are equal. -/
theorem text_determines_shape :
    (∀ v w : Value, v.BuiltFrom Bare → w.BuiltFrom Bare → v.text = w.text →
      SameShape Bare v w) ∧
    ∀ v w : Value, v.BuiltFrom BareString → w.BuiltFrom BareString →
      (v.fingerprint = w.fingerprint ↔ v = w) := by
  constructor
  · intro v w first second same
    exact sameShape_of_text_eq (fun _ => id) first second same
  · intro v w first second
    refine ⟨fun same => ?_, fun same => same ▸ rfl⟩
    have shape : SameShape BareString v w :=
      sameShape_of_text_eq (fun _ => And.left) first second (fingerprint_eq_iff.mp same).2
    apply shape.eq
    intro v w bare bare' text_eq
    rw [bare.eq_string, bare'.eq_string, text_eq]

def nestedStrings : Value :=
  .list [.string "true", .map [(.string "null", .list [.string "a"] .comma)]] .space

def nestedScalars : Value :=
  .list [.bool true, .map [(.null, .list [.string "a"] .comma)]] .space

/-- Other leaves of the same texts leave the shape; another separator of a single item does not. -/
theorem text_determines_shape_nested :
    nestedStrings.BuiltFrom Bare ∧ nestedScalars.BuiltFrom Bare ∧
      nestedStrings.text = nestedScalars.text ∧ SameShape Bare nestedStrings nestedScalars ∧
      (Value.list [.string "a"] .comma).BuiltFrom BareString ∧
      (Value.list [.string "a"] .space).BuiltFrom BareString ∧
      (Value.list [.string "a"] .comma).fingerprint ≠
        (Value.list [.string "a"] .space).fingerprint := by
  have a : (Value.string "a").Bare := ⟨by decide, by decide, by simp [text, isMark]⟩
  have single (separator : Separator) : (Value.list [.string "a"] separator).BuiltFrom BareString :=
    .list (List.forall_mem_singleton.mpr (.leaf ⟨a, rfl⟩))
  have inner : (Value.list [.string "a"] .comma).BuiltFrom Bare :=
    .list (List.forall_mem_singleton.mpr (.leaf a))
  have strings : nestedStrings.BuiltFrom Bare := by
    have first : (Value.string "true").Bare := ⟨by decide, by decide, by simp [text, isMark]⟩
    have key : (Value.string "null").Bare := ⟨by decide, by decide, by simp [text, isMark]⟩
    exact .list (List.forall_mem_cons.mpr ⟨.leaf first, List.forall_mem_singleton.mpr
      (.map (List.forall_mem_singleton.mpr (.leaf key)) (List.forall_mem_singleton.mpr inner))⟩)
  have scalars : nestedScalars.BuiltFrom Bare := by
    have first : (Value.bool true).Bare := ⟨by decide, by decide, by simp [text, isMark]⟩
    have key : Value.null.Bare := ⟨by decide, by decide, by simp [text, isMark]⟩
    exact .list (List.forall_mem_cons.mpr ⟨.leaf first, List.forall_mem_singleton.mpr
      (.map (List.forall_mem_singleton.mpr (.leaf key)) (List.forall_mem_singleton.mpr inner))⟩)
  have text_eq : nestedStrings.text = nestedScalars.text := rfl
  refine ⟨strings, scalars, text_eq, text_determines_shape.1 _ _ strings scalars text_eq,
    single .comma, single .space, fun same => ?_⟩
  cases (text_determines_shape.2 _ _ (single .comma) (single .space)).mp same

end Value

end StyleValues
