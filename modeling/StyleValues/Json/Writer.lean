import StyleValues.Json.Basic
import StyleValues.Number.Layout
import StyleValues.Text.Joined
import StyleValues.Text.Quoted

/-! Texts of JSON values, on one line or indented. -/

namespace StyleValues

/-- Doubles are written without exponent from `10 ^ (-5)` up to `10 ^ 16`, whole ones with a zero
behind the point. -/
def JsonNumber.layout : Number.Layout where
  tie := .even
  positional leading := -5 ≤ leading ∧ leading < 16
  pointZero := true
  signedZero := true
  notANumber := "null"
  infinity := "null"

def JsonNumber.text : JsonNumber → String
  | .integer n => toString n
  | .float x => layout.text x

namespace Json

def escaped (c : Char) : List Char :=
  if c = '"' ∨ c = '\\' then ['\\', c]
  else if c = '\n' then ['\\', 'n']
  else if c = '\r' then ['\\', 'r']
  else if c = '\t' then ['\\', 't']
  else if c = '\x08' then ['\\', 'b']
  else if c = '\x0c' then ['\\', 'f']
  else if c.toNat < 0x20 then
    let digits := Text.hexadecimal c.toNat
    ['\\', 'u'] ++ List.replicate (4 - digits.length) '0' ++ digits
  else [c]

def quoted (text : String) : String :=
  String.ofList ('"' :: text.toList.flatMap escaped ++ ['"'])

def lineBreak (indent : Nat) : String :=
  String.ofList ('\n' :: List.replicate indent ' ')

/-- Two signs around the parts, each part on a line of its own, two places further in. -/
def indented (indent : Nat) (first last : String) (parts : List String) : String :=
  if parts.isEmpty then first ++ last
  else first ++ lineBreak (indent + 2) ++ Text.joined ("," ++ lineBreak (indent + 2)) parts ++
    lineBreak indent ++ last

mutual

def compact : Json → String
  | .null => "null"
  | .bool true => "true"
  | .bool false => "false"
  | .number n => n.text
  | .string text => quoted text
  | .array items => "[" ++ Text.joined "," (compactItems items) ++ "]"
  | .object fields => "\x7b" ++ Text.joined "," (compactTable fields) ++ "\x7d"
termination_by structural v => v

def compactItems : List Json → List String
  | [] => []
  | v :: rest => v.compact :: compactItems rest
termination_by structural vs => vs

def compactTable : Table Json → List String
  | ⟨fields⟩ => compactFields fields
termination_by structural t => t

def compactFields : List (String × Json) → List String
  | [] => []
  | (key, v) :: rest => (quoted key ++ ":" ++ v.compact) :: compactFields rest
termination_by structural fs => fs

end

mutual

/-- The text of a value whose first line is already `indent` places in. -/
def pretty (indent : Nat) : Json → String
  | .null => "null"
  | .bool true => "true"
  | .bool false => "false"
  | .number n => n.text
  | .string text => quoted text
  | .array items => indented indent "[" "]" (prettyItems (indent + 2) items)
  | .object fields => indented indent "\x7b" "\x7d" (prettyTable (indent + 2) fields)
termination_by structural v => v

def prettyItems (indent : Nat) : List Json → List String
  | [] => []
  | v :: rest => pretty indent v :: prettyItems indent rest
termination_by structural vs => vs

def prettyTable (indent : Nat) : Table Json → List String
  | ⟨fields⟩ => prettyFields indent fields
termination_by structural t => t

def prettyFields (indent : Nat) : List (String × Json) → List String
  | [] => []
  | (key, v) :: rest => (quoted key ++ ": " ++ pretty indent v) :: prettyFields indent rest
termination_by structural fs => fs

end

end Json

end StyleValues
