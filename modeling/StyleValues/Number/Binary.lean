/-! Double precision numbers: their parts, the double nearest to a fraction, and whole values. -/

namespace StyleValues.Number

/-- Not a number, or a sign with an infinity, a zero, or a mantissa and a power of two. -/
abbrev Parts := Float.Model.UnpackedFloat

abbrev Sign := Float.Model.UnpackedFloat.Sign

def parts (x : Float) : Parts :=
  x.toModel.unpack

def ofParts (p : Parts) : Float :=
  ⟨Float.Model.pack p⟩

def isFinite (x : Float) : Bool :=
  match parts x with
  | .zero _ | .finite .. => true
  | _ => false

def leastExponent : Int := -1074

def greatestExponent : Int := 971

/-- A power of two, or one if the exponent is negative. -/
def twoTo (exponent : Int) : Nat :=
  Nat.pow 2 exponent.toNat

def tenTo (exponent : Int) : Nat :=
  Nat.pow 10 exponent.toNat

def roundHalfEven (num den : Nat) : Nat :=
  let low := num / den
  let twice := 2 * (num % den)
  if twice < den then low
  else if den < twice then low + 1
  else low + low % 2

def binaryExponent (num den : Nat) : Int :=
  let estimate : Int := num.log2 - den.log2
  if num * twoTo (-estimate) < den * twoTo estimate then estimate - 1 else estimate

/-- The power of two in which a positive fraction gets a mantissa of 53 bits, or of fewer where
doubles run out of exponents. -/
def mantissaExponent (num den : Nat) : Int :=
  max leastExponent (binaryExponent num den - 52)

/-- The double with this mantissa and power of two, where both are in range. A mantissa that was
rounded up to 54 bits moves on to the next power. -/
def ofMantissa (sign : Sign) (mantissa : Nat) (exponent : Int) : Float :=
  if mantissa = twoTo 53 then
    if greatestExponent < exponent + 1 then ofParts (.infinity sign)
    else ofParts (.finite sign (twoTo 52) (exponent + 1) (by decide))
  else if positive : 0 < mantissa then
    if greatestExponent < exponent then ofParts (.infinity sign)
    else ofParts (.finite sign mantissa exponent positive)
  else ofParts (.zero sign)

/-- The double nearest to a fraction, an even mantissa winning a tie. -/
def nearest (sign : Sign) (num den : Nat) : Float :=
  if num = 0 then ofParts (.zero sign)
  else
    let exponent := mantissaExponent num den
    ofMantissa sign (roundHalfEven (num * twoTo (-exponent)) (den * twoTo exponent)) exponent

def ofInt (n : Int) : Float :=
  nearest (if n < 0 then .negative else .positive) n.natAbs 1

/-- The exact value of a finite double that has no fraction. -/
def whole? (x : Float) : Option Int :=
  match parts x with
  | .zero _ => some 0
  | .finite sign mantissa exponent _ =>
      if 0 ≤ exponent then some (sign.apply (mantissa * twoTo exponent : Nat))
      else if mantissa % twoTo (-exponent) = 0 then
        some (sign.apply (mantissa / twoTo (-exponent) : Nat))
      else none
  | _ => none

end StyleValues.Number
