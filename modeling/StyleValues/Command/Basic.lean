import StyleValues.Dimension.Reader
import StyleValues.Host.Json
import StyleValues.Json.Reader
import StyleValues.Json.Writer

/-! What a command does with its texts. -/

namespace StyleValues

inductive Operation
  | add
  | subtract
  | multiply
  | divide
  | compare
  deriving DecidableEq, Repr

def Operation.ofName? : String → Option Operation
  | "add" => some .add
  | "sub" => some .subtract
  | "mul" => some .multiply
  | "div" => some .divide
  | "cmp" => some .compare
  | _ => none

inductive Side
  | left
  | right
  deriving DecidableEq, Repr

def Side.name : Side → String
  | .left => "left"
  | .right => "right"

inductive CommandError
  | json (text : String)
  | operand (side : Side) (text : String) (cause : UnitError)
  | units (cause : UnitError)
  | cast (cause : CastError)
  | output (cause : CastError)
  deriving DecidableEq, Repr

/-- What is said about the failure, and then about its cause. -/
def CommandError.messages : CommandError → List String
  | .json text => ["Invalid JSON: " ++ text]
  | .operand side text cause => ["Invalid " ++ side.name ++ " operand: " ++ text, cause.message]
  | .units cause => [cause.message]
  | .cast cause => ["Failed to cast value", cause.message]
  | .output cause => ["Failed to convert back to JSON", cause.message]

inductive Command
  | cast (json : String) (fingerprint : Bool)
  | roundtrip (json : String)
  | calc (left : String) (operation : Operation) (right : String)
  | unit (text : String)
  deriving DecidableEq, Repr

def readJson (text : String) : Except CommandError Json :=
  match Json.parse? text with
  | some j => pure j
  | none => throw (.json text)

def castJson (text : String) : Except CommandError Value := do
  (Host.ofJson (← readJson text)).toValue.mapError .cast

def castText (json : String) (fingerprint : Bool) : Except CommandError String := do
  let v ← castJson json
  pure (if fingerprint then v.fingerprint else v.text ++ " (" ++ v.kind.name ++ ")")

def roundtripText (json : String) : Except CommandError String := do
  let v ← castJson json
  let back ← v.toObjectHost.toJson.mapError .output
  pure (back.pretty 0)

def readOperand (side : Side) (text : String) : Except CommandError Dimension :=
  (Dimension.parse text).mapError (.operand side text)

def orderText : Ordering → String
  | .lt => "-1"
  | .eq => "0"
  | .gt => "1"

/-- Both operands are read, the left one first, before anything is computed. -/
def calcText (left : String) (operation : Operation) (right : String) :
    Except CommandError String := do
  let a ← readOperand .left left
  let b ← readOperand .right right
  match operation with
  | .add => ((a.add b).map Dimension.text).mapError .units
  | .subtract => ((a.subtract b).map Dimension.text).mapError .units
  | .multiply => pure (a * b).text
  | .divide => pure (a / b).text
  | .compare => ((a.compareTo b).map orderText).mapError .units

def unitText (text : String) : String :=
  (Units.parse text).normalized.text

def Command.run : Command → Except CommandError String
  | .cast json fingerprint => castText json fingerprint
  | .roundtrip json => roundtripText json
  | .calc left operation right => calcText left operation right
  | .unit text => pure (unitText text)

end StyleValues
