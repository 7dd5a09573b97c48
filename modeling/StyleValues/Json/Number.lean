import StyleValues.Json.Basic
import StyleValues.Number.Literal

/-! Numbers of JSON texts. A number is read into a significand of 64 bits and a power of ten, which
one product or quotient of doubles puts together. -/

namespace StyleValues.JsonNumber

/-- Appends digits to a significand as long as it stays in 64 bits, and leaves the others. -/
def absorb (significand : Nat) : List Char → Nat × List Char
  | [] => (significand, [])
  | digit :: digits =>
      let next := significand * 10 + (digit.toNat - '0'.toNat)
      if next < Number.twoTo 64 then absorb next digits else (significand, digit :: digits)

def powerOfTen (exponent : Nat) : Float :=
  Number.nearest .positive (Number.tenTo exponent) 1

/-- Divides in steps of `10 ^ 308`, the greatest power of ten that is a double. -/
def scaleDown (x : Float) (exponent : Nat) : Float :=
  if exponent ≤ 308 then x / powerOfTen exponent
  else if x == 0 then x
  else scaleDown (x / powerOfTen 308) (exponent - 308)
termination_by exponent

def scale? (significand : Nat) (exponent : Int) : Option Float :=
  let x := Number.ofInt significand
  if exponent < 0 then some (scaleDown x exponent.natAbs)
  else if significand = 0 then some x
  else if 308 < exponent then none
  else
    let y := x * powerOfTen exponent.toNat
    if Number.isFinite y then some y else none

structure Spelling where
  whole : List Char
  fraction : Option (List Char)
  exponent : Option Int

def digits? (cs : List Char) : Option (List Char × List Char) :=
  match cs.takeWhile Char.isDigit with
  | [] => none
  | digits => some (digits, cs.dropWhile Char.isDigit)

def fraction? : List Char → Option (Option (List Char) × List Char)
  | '.' :: rest => (digits? rest).map fun (digits, rest) => (some digits, rest)
  | cs => some (none, cs)

def exponent? : List Char → Option (Option Int × List Char)
  | [] => some (none, [])
  | c :: cs =>
      if c = 'e' ∨ c = 'E' then
        let (sign, unsigned) := Number.splitSign cs
        (digits? unsigned).map fun (digits, rest) =>
          (some (sign.apply (Number.natOfDigits digits)), rest)
      else some (none, c :: cs)

/-- Nothing may follow, and no zero precede another digit of the whole part. -/
def Spelling.parse? (cs : List Char) : Option Spelling := do
  let (whole, rest) ← digits? cs
  let (fraction, rest) ← fraction? rest
  let (exponent, rest) ← exponent? rest
  if rest = [] ∧ (whole.head? = some '0' → whole.length = 1) then
    some ⟨whole, fraction, exponent⟩
  else none

/-- Digits of the whole part that find no room count as zeros, those of the fraction are dropped. -/
def Spelling.magnitude? (s : Spelling) : Option Float :=
  let (significand, left) := absorb 0 s.whole
  let fraction := s.fraction.getD []
  let (significand, dropped) := absorb significand fraction
  let exponent : Int := left.length - (fraction.length - dropped.length : Nat)
  scale? significand (exponent + s.exponent.getD 0)

/-- A number with neither fraction nor exponent is an integer if it has a place among those of 64
bits. A zero with a minus sign has none. -/
def Spelling.integer? (sign : Number.Sign) (s : Spelling) : Option Int :=
  let n := Number.natOfDigits s.whole
  match s.fraction, s.exponent, sign with
  | none, none, .positive => if n < Number.twoTo 64 then some n else none
  | none, none, .negative => if 0 < n ∧ n ≤ Number.twoTo 63 then some (-n) else none
  | _, _, _ => none

def Spelling.number? (sign : Number.Sign) (s : Spelling) : Option JsonNumber :=
  match s.integer? sign with
  | some n => some (.integer n)
  | none => s.magnitude?.map fun x => .float (match sign with | .negative => -x | .positive => x)

def parse? : List Char → Option JsonNumber
  | '-' :: cs => (Spelling.parse? cs).bind (Spelling.number? .negative)
  | cs => (Spelling.parse? cs).bind (Spelling.number? .positive)

end StyleValues.JsonNumber
