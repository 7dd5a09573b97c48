import StyleValues.Proofs.Json.Reading
import StyleValues.Proofs.Json.Scanning

/-! What is written of a JSON value is read back as this value: the text is scanned as the tokens of
the value, and these are read as the value. -/

namespace StyleValues

namespace JsonToken

def separated : List (List JsonToken) → List JsonToken
  | [] => []
  | [part] => part
  | part :: next :: rest => part ++ .comma :: separated (next :: rest)

theorem exists_separated_cons (token : JsonToken) (rest : List JsonToken)
    (parts : List (List JsonToken)) :
    ∃ behind, separated ((token :: rest) :: parts) = token :: behind := by
  cases parts with
  | nil => exact ⟨rest, rfl⟩
  | cons => exact ⟨_, rfl⟩

/-- Tokens that stand for a text, whatever ends it. -/
def Scans (part : String) (tokens : List JsonToken) : Prop :=
  ∀ rest, Ends rest → scan? (part.toList ++ rest) = (scan? rest).map (tokens ++ ·)

theorem Scans.word {text : String} {word : JsonToken}
    (isWord : word? text.toList = some word) (letters : text.toList.all Char.isAlpha)
    (apart : text.toList.head?.all (!isNumberChar ·)) : Scans text [word] := by
  intro rest ends
  generalize text.toList = cs at isWord letters apart
  cases cs with
  | nil => cases isWord
  | cons c cs =>
    refine scan?_word isWord (List.all_eq_true.mp letters) ?_ ends
    simpa using apart

theorem scan?_lineBreak (indent : Nat) (rest : List Char) :
    scan? ((Json.lineBreak indent).toList ++ rest) = scan? rest := by
  apply scan?_spaces
  rw [Json.lineBreak, String.toList_ofList]
  refine List.forall_mem_cons.mpr ⟨by decide, fun c member => ?_⟩
  rw [List.eq_of_mem_replicate member]
  decide

theorem Scans.joined {indent : Nat} {parts : List String} {tokens : List (List JsonToken)}
    (each : List.Forall₂ Scans parts tokens) :
    Scans (Text.joined ("," ++ Json.lineBreak indent) parts) (separated tokens) := by
  intro rest ends
  induction each with
  | nil => exact Option.map_id'.symm
  | @cons part some parts others first each ih =>
    cases each with
    | nil => exact first rest ends
    | @cons next _ parts _ _ _ =>
      have comma : Ends (',' :: ((Json.lineBreak indent).toList ++
          ((Text.joined ("," ++ Json.lineBreak indent) (next :: parts)).toList ++ rest))) :=
        ends_cons (by decide) (by decide) _
      rw [Text.joined_cons_cons, separated]
      simp only [String.toList_append, List.append_assoc]
      refine (first _ comma).trans ?_
      rw [scan?_sign rfl, scan?_lineBreak, ih]
      simp [Function.comp_def]

/-- A text that is one sign ends whatever stands in front of it, and nothing has to end it. -/
def IsSign (text : String) (sign : JsonToken) : Prop :=
  ∃ c, text.toList = [c] ∧ sign? c = some sign

theorem IsSign.scan? {text : String} {sign : JsonToken} (isSign : IsSign text sign)
    (rest : List Char) : scan? (text.toList ++ rest) = (scan? rest).map (sign :: ·) := by
  obtain ⟨c, single, isSign⟩ := isSign
  rw [single]
  exact scan?_sign isSign rest

theorem Scans.indented {first last : String} {opening closing : JsonToken}
    (opens : IsSign first opening) (closes : IsSign last closing) (indent : Nat)
    {parts : List String} {tokens : List (List JsonToken)}
    (each : List.Forall₂ Scans parts tokens) :
    Scans (Json.indented indent first last parts) (opening :: separated tokens ++ [closing]) := by
  intro rest ends
  unfold Json.indented
  split
  · rename_i empty
    obtain rfl := List.isEmpty_iff.mp empty
    cases each
    rw [String.toList_append, List.append_assoc, opens.scan?, closes.scan?, Option.map_map]
    rfl
  · have lineEnd : Ends ((Json.lineBreak indent).toList ++ (last.toList ++ rest)) := by
      rw [Json.lineBreak, String.toList_ofList]
      exact ends_cons (by decide) (by decide) _
    simp only [String.toList_append, List.append_assoc]
    rw [opens.scan?, scan?_lineBreak, Scans.joined each _ lineEnd, scan?_lineBreak, closes.scan?]
    simp [Function.comp_def]

end JsonToken

namespace Json

mutual

def tokens : Json → List JsonToken
  | .null => [.null]
  | .bool b => [.bool b]
  | .number n => [.number n]
  | .string text => [.string text]
  | .array items => .openArray :: JsonToken.separated (itemTokens items) ++ [.closeArray]
  | .object fields => .openObject :: JsonToken.separated (tableTokens fields) ++ [.closeObject]
termination_by structural j => j

def itemTokens : List Json → List (List JsonToken)
  | [] => []
  | j :: rest => j.tokens :: itemTokens rest
termination_by structural js => js

def tableTokens : Table Json → List (List JsonToken)
  | ⟨fields⟩ => fieldTokens fields
termination_by structural t => t

def fieldTokens : List (String × Json) → List (List JsonToken)
  | [] => []
  | (key, j) :: rest => (.string key :: .colon :: j.tokens) :: fieldTokens rest
termination_by structural fs => fs

end

inductive EachNumber (P : JsonNumber → Prop) : Json → Prop
  | null : EachNumber P .null
  | bool (b : Bool) : EachNumber P (.bool b)
  | number {n : JsonNumber} (holds : P n) : EachNumber P (.number n)
  | string (text : String) : EachNumber P (.string text)
  | array {items : List Json} (inner : ∀ j ∈ items, EachNumber P j) : EachNumber P (.array items)
  | object {fields : Table Json} (inner : ∀ field ∈ fields.entries, EachNumber P field.2) :
      EachNumber P (.object fields)

open JsonToken (Scans scan?_sign scan?_quoted)

theorem scans_items {indent : Nat} {items : List Json}
    (each : ∀ j ∈ items, Scans (pretty indent j) j.tokens) :
    List.Forall₂ Scans (prettyItems indent items) (itemTokens items) := by
  induction items with
  | nil => exact .nil
  | cons j rest ih =>
    obtain ⟨first, others⟩ := List.forall_mem_cons.mp each
    exact .cons first (ih others)

theorem scans_field {part : String} {tokens : List JsonToken} (scans : Scans part tokens)
    (key : String) : Scans (quoted key ++ ": " ++ part) (.string key :: .colon :: tokens) := by
  intro rest ends
  have colon (behind : List Char) :
      JsonToken.scan? (": ".toList ++ behind) = (JsonToken.scan? behind).map (.colon :: ·) :=
    (scan?_sign rfl _).trans (congrArg _ (JsonToken.scan?_space rfl _))
  rw [String.toList_append, String.toList_append, List.append_assoc, List.append_assoc,
    scan?_quoted, colon, scans rest ends, Option.map_map, Option.map_map]
  rfl

theorem scans_fields {indent : Nat} {fields : Table Json}
    (each : ∀ field ∈ fields.entries, Scans (pretty indent field.2) field.2.tokens) :
    List.Forall₂ Scans (prettyTable indent fields) (tableTokens fields) := by
  obtain ⟨fields⟩ := fields
  unfold prettyTable tableTokens
  induction fields with
  | nil => exact .nil
  | cons field rest ih =>
    obtain ⟨first, others⟩ := List.forall_mem_cons.mp each
    exact .cons (scans_field first field.1) (ih others)

theorem scans_pretty {j : Json} (kept : j.EachNumber JsonNumber.Kept) (indent : Nat) :
    Scans (pretty indent j) j.tokens := by
  induction kept generalizing indent with
  | null =>
    rw [pretty, tokens]
    exact .word rfl rfl rfl
  | bool b =>
    cases b <;>
    · rw [pretty, tokens]
      exact .word rfl rfl rfl
  | number kept => exact fun rest ends => JsonToken.scan?_number kept ends
  | string text => exact fun rest _ => scan?_quoted text rest
  | array _ ih =>
    rw [pretty, tokens]
    exact .indented ⟨'[', rfl, rfl⟩ ⟨']', rfl, rfl⟩ indent
      (scans_items fun j member => ih j member (indent + 2))
  | object _ ih =>
    rw [pretty, tokens]
    exact .indented ⟨'\x7b', rfl, rfl⟩ ⟨'\x7d', rfl, rfl⟩ indent
      (scans_fields fun field member => ih field member (indent + 2))

def Reads {tokens : List JsonToken} (read : Option (α × Rest tokens)) (a : α)
    (rest : List JsonToken) : Prop :=
  ∃ shorter, read = some (a, ⟨rest, shorter⟩)

/-- A value whose tokens are read as this value, whatever stands behind them. -/
def ReadsBack (depth : Nat) (j : Json) : Prop :=
  ∀ rest, Reads (value? depth (j.tokens ++ rest)) j rest

theorem reads_items {depth : Nat} {j : Json} {items : List Json}
    (each : ∀ k ∈ j :: items, ReadsBack depth k) (rest : List JsonToken) :
    Reads (items? depth (JsonToken.separated (itemTokens (j :: items)) ++ .closeArray :: rest))
      (j :: items) rest := by
  induction items generalizing j with
  | nil =>
    obtain ⟨_, read⟩ := each j List.mem_cons_self (.closeArray :: rest)
    have single : JsonToken.separated (itemTokens [j]) = j.tokens := rfl
    rw [single, items?, read]
    exact ⟨_, rfl⟩
  | cons next items ih =>
    obtain ⟨first, others⟩ := List.forall_mem_cons.mp each
    obtain ⟨_, behind⟩ := ih others
    obtain ⟨_, read⟩ := first (.comma ::
      (JsonToken.separated (itemTokens (next :: items)) ++ .closeArray :: rest))
    have parts : JsonToken.separated (itemTokens (j :: next :: items)) =
        j.tokens ++ .comma :: JsonToken.separated (itemTokens (next :: items)) := rfl
    rw [parts, List.append_assoc, List.cons_append, items?, read]
    dsimp only
    rw [behind]
    exact ⟨_, rfl⟩

theorem reads_fields {depth : Nat} {field : String × Json} {fields : List (String × Json)}
    (each : ∀ other ∈ field :: fields, ReadsBack depth other.2) (rest : List JsonToken) :
    Reads (fields? depth
        (JsonToken.separated (fieldTokens (field :: fields)) ++ .closeObject :: rest))
      (field :: fields) rest := by
  induction fields generalizing field with
  | nil =>
    obtain ⟨_, read⟩ := each field List.mem_cons_self (.closeObject :: rest)
    have single : JsonToken.separated (fieldTokens [field]) =
        .string field.1 :: .colon :: field.2.tokens := rfl
    rw [single, List.cons_append, List.cons_append, fields?, read]
    exact ⟨_, rfl⟩
  | cons next fields ih =>
    obtain ⟨first, others⟩ := List.forall_mem_cons.mp each
    obtain ⟨_, behind⟩ := ih others
    obtain ⟨_, read⟩ := first (.comma ::
      (JsonToken.separated (fieldTokens (next :: fields)) ++ .closeObject :: rest))
    have parts : JsonToken.separated (fieldTokens (field :: next :: fields)) =
        .string field.1 :: .colon :: (field.2.tokens ++
          .comma :: JsonToken.separated (fieldTokens (next :: fields))) := rfl
    rw [parts, List.cons_append, List.cons_append, List.append_assoc, List.cons_append, fields?,
      read]
    dsimp only
    rw [behind]
    exact ⟨_, rfl⟩

theorem exists_tokens_cons (j : Json) :
    ∃ token rest, j.tokens = token :: rest ∧ token ≠ .closeArray := by
  cases j <;> exact ⟨_, _, rfl, nofun⟩

theorem readsBack_array {depth : Nat} {items : List Json}
    (each : ∀ j ∈ items, ReadsBack depth j) : ReadsBack (depth + 1) (.array items) := by
  intro rest
  rw [tokens, List.append_assoc, List.singleton_append, List.cons_append]
  cases items with
  | nil =>
    rw [itemTokens, JsonToken.separated, List.nil_append, value?]
    exact ⟨_, rfl⟩
  | cons j items =>
    obtain ⟨_, read⟩ := reads_items each rest
    rw [value?, read]
    · exact ⟨_, rfl⟩
    · intro behind same
      obtain ⟨token, after, first, notClosed⟩ := j.exists_tokens_cons
      obtain ⟨_, front⟩ := JsonToken.exists_separated_cons token after (itemTokens items)
      rw [itemTokens, first, front, List.cons_append, List.cons.injEq] at same
      exact notClosed same.1

theorem readsBack_object {depth : Nat} {fields : Table Json} (distinct : fields.Distinct)
    (each : ∀ field ∈ fields.entries, ReadsBack depth field.2) :
    ReadsBack (depth + 1) (.object fields) := by
  intro rest
  obtain ⟨fields⟩ := fields
  have made : Table.ofList fields = ⟨fields⟩ := Table.ofList_of_nodup distinct
  rw [tokens, tableTokens, List.append_assoc, List.singleton_append, List.cons_append]
  cases fields with
  | nil =>
    rw [fieldTokens, JsonToken.separated, List.nil_append, value?]
    exact ⟨_, rfl⟩
  | cons field fields =>
    obtain ⟨_, read⟩ := reads_fields each rest
    rw [value?, read, ← made]
    · exact ⟨_, rfl⟩
    · intro behind same
      obtain ⟨_, front⟩ := JsonToken.exists_separated_cons (.string field.1)
        (.colon :: field.2.tokens) (fieldTokens fields)
      rw [fieldTokens, front] at same
      cases same

theorem readsBack_of_readable {depth : Nat} {j : Json} (readable : Readable depth j) :
    ReadsBack depth j := by
  induction readable with
  | array _ ih => exact readsBack_array ih
  | object distinct _ ih => exact readsBack_object distinct ih
  | _ =>
    intro rest
    rw [tokens, List.singleton_append, value?]
    exact ⟨_, rfl⟩

/-- What is written is read back, if it is not deeper than the reader goes and its numbers are read
back. -/
theorem parse?_pretty {j : Json} (readable : Readable depthLimit j)
    (kept : j.EachNumber JsonNumber.Kept) : parse? (j.pretty 0) = some j := by
  have scanned : JsonToken.scan? (j.pretty 0).toList = some (j.tokens ++ []) := by
    have scans := scans_pretty kept 0 [] nofun
    rwa [List.append_nil, JsonToken.scan?] at scans
  obtain ⟨_, read⟩ := readsBack_of_readable readable []
  rw [parse?, scanned, Option.bind_eq_bind, Option.bind_some, read]

theorem ofFloat_cases (x : Float) :
    ofFloat x = .null ∨ ofFloat x = .number (.float x) ∨
      ∃ n : Int, n.natAbs < 2 ^ 53 ∧ ofFloat x = .number (.integer n) := by
  unfold ofFloat
  split
  · split
    · exact .inr (.inr ⟨_, ‹_›, rfl⟩)
    · exact .inr (.inl rfl)
  · split
    · exact .inr (.inl rfl)
    · exact .inl rfl

theorem Readable.normalized {depth : Nat} {j : Json} (readable : Readable depth j) :
    Readable depth j.normalized := by
  induction readable with
  | number depth n =>
    change Readable depth (ofFloat n.toFloat)
    rcases ofFloat_cases n.toFloat with form | form | ⟨k, -, form⟩ <;> rw [form]
    · exact .null depth
    · exact .number depth _
    · exact .number depth _
  | array _ ih =>
    rw [Json.normalized, normalizedItems_eq_map]
    exact .array (List.forall_mem_map.mpr ih)
  | @object depth fields distinct _ ih =>
    rw [Json.normalized, normalizedTable_eq_mapped]
    refine .object ?_ (List.forall_mem_map.mpr ih)
    unfold Table.Distinct Table.keys Table.mapped
    rw [List.map_map]
    exact distinct
  | null depth => exact .null depth
  | bool depth b => exact .bool depth b
  | string depth text => exact .string depth text

/-- The integers that doubles become are small, so that only doubles that stay doubles need be
kept. -/
theorem eachNumber_kept_ofFloat {x : Float}
    (kept : (ofFloat x).EachNumber fun n => (∃ k, n = .integer k) ∨ n.Kept) :
    (ofFloat x).EachNumber JsonNumber.Kept := by
  rcases ofFloat_cases x with form | form | ⟨n, small, form⟩ <;> rw [form] at kept ⊢
  · exact .null
  · cases kept with
    | number holds => exact .number (holds.resolve_left nofun)
  · exact .number (JsonNumber.kept_integer (by omega) (by omega))

theorem eachNumber_kept_normalized {j : Json}
    (kept : j.normalized.EachNumber fun n => (∃ k, n = .integer k) ∨ n.Kept) :
    j.normalized.EachNumber JsonNumber.Kept := by
  induction j with
  | number n => exact eachNumber_kept_ofFloat kept
  | array items ih =>
    rw [normalized, normalizedItems_eq_map] at kept ⊢
    cases kept with
    | array inner =>
      rw [List.forall_mem_map] at inner
      refine .array (List.forall_mem_map.mpr fun j member => ?_)
      exact ih j member (inner j member)
  | object fields ih =>
    rw [normalized, normalizedTable_eq_mapped] at kept ⊢
    cases kept with
    | object inner =>
      rw [Table.mapped, List.forall_mem_map] at inner
      refine .object (List.forall_mem_map.mpr fun field member => ?_)
      exact ih field member (inner field member)
  | null => exact .null
  | bool b => exact .bool b
  | string text => exact .string text

end Json

end StyleValues
