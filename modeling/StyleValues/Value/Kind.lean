import StyleValues.Value.Text

/-! Kinds of values by name, and the checks that ask for a kind. -/

namespace StyleValues

inductive Kind
  | number
  | string
  | color
  | bool
  | list
  | map
  | null
  | error
  deriving DecidableEq, Repr

namespace Kind

def all : List Kind :=
  [.number, .string, .color, .bool, .list, .map, .null, .error]

def name : Kind → String
  | .number => "number"
  | .string => "string"
  | .color => "color"
  | .bool => "bool"
  | .list => "list"
  | .map => "map"
  | .null => "null"
  | .error => "error"

def ofName? (text : String) : Option Kind :=
  all.find? fun kind => kind.name == text

@[simp] theorem ofName?_name (kind : Kind) : ofName? kind.name = some kind := by
  cases kind <;> rfl

def unknownMessage (text : String) : String :=
  "unknown Sass type '" ++ text ++ "'"

end Kind

inductive ValueError
  | indexOutOfBounds (index length : Nat)
  | unexpectedKind (expected : Kind) (found : String)
  deriving DecidableEq, Repr

def ValueError.message : ValueError → String
  | .indexOutOfBounds index length =>
      "index " ++ toString index ++ " is out of bounds for length " ++ toString length
  | .unexpectedKind expected found => "Expected " ++ expected.name ++ " but got " ++ found

namespace Value

def kind : Value → Kind
  | .string _ => .string
  | .number .. => .number
  | .bool _ => .bool
  | .null => .null
  | .color _ => .color
  | .list .. => .list
  | .map _ => .map
  | .error _ => .error

/-- An empty list passes for a map. -/
def hasKind (v : Value) (kind : Kind) : Bool :=
  v.kind == kind || (kind == .map && v.isEmptyMap)

def requireKind (v : Value) (kind : Kind) : Except ValueError Unit :=
  if v.hasKind kind then pure () else throw (.unexpectedKind kind v.text)

/-- Identifies a value as a key: its kind and its text. -/
def fingerprint (v : Value) : String :=
  v.kind.name ++ ":" ++ v.text

end Value

end StyleValues
