import StyleValues.Number.Decimal

/-! Texts of numbers: the shortest digits that read back, laid out in one of several ways. -/

namespace StyleValues.Number

structure Layout where
  /-- Which of two equally near shortest decimals is written. -/
  tie : Tie
  /-- Whether a number whose first digit counts for this power of ten has no exponent part. -/
  positional : Int → Bool
  /-- Whether a number without exponent part and without fraction ends in a point and a zero. -/
  pointZero : Bool
  /-- Whether the sign of a negative zero is written. -/
  signedZero : Bool
  notANumber : String
  infinity : String

/-- Digits of a decimal point notation: `leading` is the power of ten of the first digit. -/
def Layout.plain (l : Layout) (digits : List Char) (leading : Int) : List Char :=
  if leading < 0 then
    ['0', '.'] ++ List.replicate (-leading - 1).toNat '0' ++ digits
  else
    let count := leading.toNat + 1
    if digits.length ≤ count then
      digits ++ List.replicate (count - digits.length) '0' ++
        (if l.pointZero then ['.', '0'] else [])
    else digits.take count ++ ['.'] ++ digits.drop count

def scientific (digits : List Char) (leading : Int) : List Char :=
  digits.take 1 ++ (if digits.length ≤ 1 then [] else '.' :: digits.drop 1) ++
    ['e', if leading < 0 then '-' else '+'] ++ Nat.toDigits 10 leading.natAbs

def Layout.decimal (l : Layout) (d : Decimal) : List Char :=
  let digits := Nat.toDigits 10 d.digits
  let leading := d.exponent + digits.length - 1
  if l.positional leading then l.plain digits leading else scientific digits leading

def signed (sign : Sign) (text : String) : String :=
  match sign with
  | .negative => "-" ++ text
  | .positive => text

def Layout.text (l : Layout) (x : Float) : String :=
  match parts x with
  | .notANumber => l.notANumber
  | .infinity sign => signed sign l.infinity
  | .zero sign =>
      signed (if l.signedZero then sign else .positive) (if l.pointZero then "0.0" else "0")
  | .finite sign mantissa exponent _ =>
      signed sign (String.ofList (l.decimal (shortest l.tie mantissa exponent)))

end StyleValues.Number
