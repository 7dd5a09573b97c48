import StyleValues.Number.Binary
import StyleValues.Table

/-! JSON values. -/

namespace StyleValues

/-- A number is exact if it is an integer of at most 64 bits, and a double otherwise. -/
inductive JsonNumber
  | integer (n : Int)
  | float (x : Float)
  deriving DecidableEq

inductive Json
  | null
  | bool (b : Bool)
  | number (n : JsonNumber)
  | string (text : String)
  | array (items : List Json)
  | object (fields : Table Json)

instance : Inhabited Json := ⟨.null⟩

def JsonNumber.toFloat : JsonNumber → Float
  | .integer n => Number.ofInt n
  | .float x => x

/-- Whole numbers of magnitude below `2 ^ 53` become integers. What is not finite becomes null. -/
def Json.ofFloat (x : Float) : Json :=
  match Number.whole? x with
  | some n => .number (if n.natAbs < Number.twoTo 53 then .integer n else .float x)
  | none => if Number.isFinite x then .number (.float x) else .null

end StyleValues
