import StyleValues.Units.Normal
import StyleValues.Value.Text

/-! Numbers with units: arithmetic, conversion and comparison. Units are symbols only; none is ever
converted to another. -/

namespace StyleValues

inductive UnitError
  | incompatible (source target : String)
  | unsupported (unit : String)
  | unreadable (text : String)
  deriving DecidableEq, Repr

def UnitError.message : UnitError → String
  | .incompatible source target => "Cannot convert " ++ source ++ " to " ++ target
  | .unsupported unit =>
      "complex unit '" ++ unit ++ "' cannot be represented as a single-unit number"
  | .unreadable text => "invalid dimension '" ++ text ++ "'"

/-- A number with units in normal form. -/
structure Dimension where
  value : Float
  units : Units
  normal : units.Normal

namespace Dimension

def of (x : Float) (units : Units) : Dimension :=
  ⟨x, units.normalized, units.normal_normalized⟩

def unitless (x : Float) : Dimension :=
  of x .none

def ofNumber (x : Float) (unit : String) : Dimension :=
  of x (.parse unit)

def isUnitless (d : Dimension) : Bool :=
  d.units.isEmpty

def text (d : Dimension) : String :=
  formatNumber d.value ++ d.units.text

def same (a b : Dimension) : Bool :=
  a.value == b.value && a.units == b.units

instance : BEq Dimension := ⟨same⟩

/-- A unitless number takes any units. Any other keeps its own, which the target has to name symbol
by symbol in the same order. -/
def convertTo (d : Dimension) (target : Units) : Except UnitError Dimension :=
  if d.isUnitless then pure (of d.value target)
  else if d.units = target then pure d
  else throw (.incompatible d.units.text target.text)

/-- Combines two numbers, the second one in the units of the first. -/
def combine (f : Float → Float → α) (a b : Dimension) : Except UnitError α :=
  return f a.value (← b.convertTo a.units).value

def add (a b : Dimension) : Except UnitError Dimension :=
  combine (fun x y => of (x + y) a.units) a b

def subtract (a b : Dimension) : Except UnitError Dimension :=
  combine (fun x y => of (x - y) a.units) a b

def multiply (a b : Dimension) : Dimension :=
  of (a.value * b.value)
    ⟨a.units.numerator ++ b.units.numerator, a.units.denominator ++ b.units.denominator⟩

def divide (a b : Dimension) : Dimension :=
  of (a.value / b.value)
    ⟨a.units.numerator ++ b.units.denominator, a.units.denominator ++ b.units.numerator⟩

instance : Mul Dimension := ⟨multiply⟩
instance : Div Dimension := ⟨divide⟩

/-- The order of two doubles. What is not a number counts as equal to everything. -/
def orderOf (x y : Float) : Ordering :=
  if x < y then .lt else if y < x then .gt else .eq

def compareTo : Dimension → Dimension → Except UnitError Ordering :=
  combine orderOf

def lt : Dimension → Dimension → Except UnitError Bool :=
  combine fun x y => x < y

def lte : Dimension → Dimension → Except UnitError Bool :=
  combine fun x y => x ≤ y

def gt : Dimension → Dimension → Except UnitError Bool :=
  combine fun x y => y < x

def gte : Dimension → Dimension → Except UnitError Bool :=
  combine fun x y => y ≤ x

/-- Equality after conversion, so that a unitless number equals one with units. -/
def equals : Dimension → Dimension → Except UnitError Bool :=
  combine fun x y => x == y

/-- A number value has room for one symbol in the numerator and none in the denominator. -/
def toValue (d : Dimension) : Except UnitError Value :=
  match d.units.numerator, d.units.denominator with
  | [], [] => pure (.number d.value "")
  | [symbol], [] => pure (.number d.value symbol)
  | _, _ => throw (.unsupported d.units.text)

end Dimension

end StyleValues
