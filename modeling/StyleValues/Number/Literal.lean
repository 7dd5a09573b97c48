import StyleValues.Number.Decimal

/-! Decimal literals at the start of a text, and what follows them. -/

namespace StyleValues.Number

def natOfDigits (digits : List Char) : Nat :=
  Nat.ofDigitChars 10 digits 0

def isDigitOrPoint (c : Char) : Bool :=
  c.isDigit || c == '.'

def splitSign : List Char → Sign × List Char
  | '+' :: rest => (.positive, rest)
  | '-' :: rest => (.negative, rest)
  | cs => (.positive, cs)

def pointed? (run : List Char) : Option Decimal :=
  let whole := run.takeWhile (· != '.')
  let fraction := (run.dropWhile (· != '.')).drop 1
  if '.' ∈ fraction ∨ whole ++ fraction = [] then none
  else some ⟨natOfDigits (whole ++ fraction), -fraction.length⟩

/-- An exponent is a letter, an optional sign and at least one digit. Anything else is left to the
text that follows. -/
def splitExponent (cs : List Char) : Int × List Char :=
  match cs with
  | [] => (0, [])
  | c :: afterLetter =>
      let (sign, afterSign) := splitSign afterLetter
      let digits := afterSign.takeWhile Char.isDigit
      if (c == 'e' || c == 'E') && !digits.isEmpty then
        (sign.apply (natOfDigits digits), afterSign.dropWhile Char.isDigit)
      else (0, cs)

/-- The number at the start of a text, and the text behind it. All digits and points in a row belong
to the number. -/
def literal? (cs : List Char) : Option (Float × List Char) :=
  let (sign, unsigned) := splitSign cs
  match pointed? (unsigned.takeWhile isDigitOrPoint) with
  | none => none
  | some d =>
      let (power, rest) := splitExponent (unsigned.dropWhile isDigitOrPoint)
      some (Decimal.toFloat sign { d with exponent := d.exponent + power }, rest)

end StyleValues.Number
