import StyleValues.Text.Printable

/-! Texts in double quotes, with escapes for what cannot be shown as it is. -/

namespace StyleValues.Text

def hexadecimal (n : Nat) : List Char :=
  Nat.toDigits 16 n

/-- The quote, the backslash and the common controls have a letter; any other unprintable character
is written by its code point. -/
def escaped (c : Char) : List Char :=
  if c = '\x00' then ['\\', '0']
  else if c = '\t' then ['\\', 't']
  else if c = '\r' then ['\\', 'r']
  else if c = '\n' then ['\\', 'n']
  else if c = '\\' ∨ c = '"' then ['\\', c]
  else if isPrintable c then [c]
  else ['\\', 'u', '\x7b'] ++ hexadecimal c.toNat ++ ['\x7d']

def quoted (text : String) : String :=
  String.ofList ('"' :: text.toList.flatMap escaped ++ ['"'])

end StyleValues.Text
