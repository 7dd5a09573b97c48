import StyleValues.Json.Token

/-! JSON values read from texts. -/

namespace StyleValues.Json

abbrev Rest (tokens : List JsonToken) := { rest : List JsonToken // rest.length < tokens.length }

def Rest.after {tokens : List JsonToken} (token : JsonToken) (rest : Rest tokens) :
    Rest (token :: tokens) :=
  ⟨rest.1, Nat.lt_succ_of_lt rest.2⟩

def Rest.tail {tokens : List JsonToken} (token : JsonToken) : Rest (token :: tokens) :=
  ⟨tokens, Nat.lt_succ_self _⟩

mutual

/-- Reads one value with at most `depth` arrays and objects open at a time. -/
def value? (depth : Nat) (tokens : List JsonToken) : Option (Json × Rest tokens) :=
  match depth, tokens with
  | _, .null :: _ => some (.null, .tail _)
  | _, .bool b :: _ => some (.bool b, .tail _)
  | _, .number n :: _ => some (.number n, .tail _)
  | _, .string text :: _ => some (.string text, .tail _)
  | _ + 1, .openArray :: .closeArray :: _ => some (.array [], (Rest.tail _).after _)
  | _ + 1, .openObject :: .closeObject :: _ => some (.object .empty, (Rest.tail _).after _)
  | depth + 1, .openArray :: tokens =>
      (items? depth tokens).map fun (items, rest) => (.array items, rest.after _)
  | depth + 1, .openObject :: tokens =>
      (fields? depth tokens).map fun (fields, rest) => (.object (.ofList fields), rest.after _)
  | _, _ => none
termination_by (tokens.length, 0)

def items? (depth : Nat) (tokens : List JsonToken) : Option (List Json × Rest tokens) :=
  match value? depth tokens with
  | some (v, ⟨.comma :: behind, shorter⟩) =>
      (items? depth behind).map fun (items, rest) =>
        (v :: items,
          ⟨rest.1, by have := rest.2; simp only [List.length_cons] at shorter; omega⟩)
  | some (v, ⟨.closeArray :: behind, shorter⟩) =>
      some ([v], ⟨behind, by simp only [List.length_cons] at shorter; omega⟩)
  | _ => none
termination_by (tokens.length, 1)
decreasing_by
  · exact Prod.Lex.right _ Nat.zero_lt_one
  · apply Prod.Lex.left
    simp only [List.length_cons] at shorter
    omega

def fields? (depth : Nat) (tokens : List JsonToken) :
    Option (List (String × Json) × Rest tokens) :=
  match tokens with
  | .string key :: .colon :: tokens =>
      match value? depth tokens with
      | some (v, ⟨.comma :: behind, shorter⟩) =>
          (fields? depth behind).map fun (fields, rest) =>
            ((key, v) :: fields,
              ⟨rest.1, by have := rest.2; simp only [List.length_cons] at *; omega⟩)
      | some (v, ⟨.closeObject :: behind, shorter⟩) =>
          some ([(key, v)], ⟨behind, by simp only [List.length_cons] at *; omega⟩)
      | _ => none
  | _ => none
termination_by (tokens.length, 1)
decreasing_by
  · apply Prod.Lex.left
    simp only [List.length_cons]
    omega
  · apply Prod.Lex.left
    simp only [List.length_cons] at *
    omega

end

def depthLimit : Nat := 127

/-- Of fields with one key, the first gives the place and the last the value. -/
def parse? (text : String) : Option Json := do
  let tokens ← JsonToken.scan? text.toList
  match value? depthLimit tokens with
  | some (v, ⟨[], _⟩) => some v
  | _ => none

end StyleValues.Json
