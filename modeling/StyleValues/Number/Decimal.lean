import StyleValues.Number.Binary

/-! Decimal numbers, their nearest doubles, and the shortest decimal that reads back. -/

namespace StyleValues.Number

structure Decimal where
  digits : Nat
  exponent : Int
  deriving DecidableEq, Repr

def digitCount (n : Nat) : Nat :=
  (Nat.toDigits 10 n).length

/-- Past these powers of ten every decimal is infinite, or zero, as a double. -/
def Decimal.toFloat (sign : Sign) (d : Decimal) : Float :=
  let magnitude := digitCount d.digits + d.exponent
  if d.digits = 0 ∨ magnitude < -330 then ofParts (.zero sign)
  else if 310 < magnitude then ofParts (.infinity sign)
  else nearest sign (d.digits * tenTo d.exponent) (tenTo (-d.exponent))

inductive Tie
  | larger
  | even
  deriving DecidableEq, Repr

/-- A positive value and the ends of the interval of numbers that round to it, as fractions of one
denominator. The ends round to it too if its mantissa is even. -/
structure Interval where
  lower : Nat
  value : Nat
  upper : Nat
  unit : Nat
  closed : Bool

/-- The interval of `mantissa · 2 ^ exponent`: half way to the next value on both sides. Below a
power of two the next value is only half as far. -/
def Interval.ofFinite (mantissa : Nat) (exponent : Int) : Interval :=
  let scale := twoTo (exponent - 2)
  let below := if mantissa = twoTo 52 ∧ leastExponent < exponent then 1 else 2
  { lower := (4 * mantissa - below) * scale
    value := 4 * mantissa * scale
    upper := (4 * mantissa + 2) * scale
    unit := twoTo (2 - exponent)
    closed := mantissa % 2 = 0 }

def Interval.contains (i : Interval) (d : Decimal) : Bool :=
  let point := d.digits * tenTo d.exponent * i.unit
  let scale := tenTo (-d.exponent)
  if i.closed then i.lower * scale ≤ point && point ≤ i.upper * scale
  else i.lower * scale < point && point < i.upper * scale

/-- The least power of ten above the value. Below one it is told by the greatest whole number under
the reciprocal. -/
def Interval.magnitude (i : Interval) : Int :=
  if i.unit ≤ i.value then digitCount (i.value / i.unit)
  else 1 - digitCount ((i.unit - 1) / i.value)

/-- Of the two decimals with this exponent around the value, one that reads back to it: the nearer
if both do. -/
def Interval.neighbour? (i : Interval) (tie : Tie) (exponent : Int) : Option Decimal :=
  let num := i.value * tenTo (-exponent)
  let den := tenTo exponent * i.unit
  let low : Decimal := ⟨num / den, exponent⟩
  let high : Decimal := ⟨num / den + 1, exponent⟩
  match i.contains low, i.contains high with
  | true, true =>
      let twice := 2 * (num % den)
      if twice < den then some low
      else if den < twice then some high
      else match tie with
        | .larger => some high
        | .even => some (if low.digits % 2 = 0 then low else high)
  | true, false => some low
  | false, true => some high
  | false, false => none

/-- A zero at the end goes into the exponent. What is rounded up to a power of ten has one. -/
def Decimal.withoutZero (d : Decimal) : Decimal :=
  if d.digits % 10 = 0 then ⟨d.digits / 10, d.exponent + 1⟩ else d

/-- A decimal of fewest digits that reads back, and of those one nearest to the value. Seventeen
digits always suffice; the exact value is there for a search that finds none. -/
def shortest (tie : Tie) (mantissa : Nat) (exponent : Int) : Decimal :=
  let i := Interval.ofFinite mantissa exponent
  let found := (List.range 17).findSome? fun (n : Nat) => i.neighbour? tie (i.magnitude - (n + 1))
  match found with
  | some d => d.withoutZero
  | none => ⟨mantissa * twoTo exponent * tenTo (-exponent) / twoTo (-exponent), min exponent 0⟩

end StyleValues.Number
