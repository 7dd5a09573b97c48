import StyleValues.Text.Joined

/-! Units as symbols above and below a fraction bar, their text, and its reading. -/

namespace StyleValues

/-- Unit symbols in the order they were given; a symbol may repeat on either side. -/
structure Units where
  numerator : List String
  denominator : List String
  deriving DecidableEq, Repr

namespace Units

def none : Units := ⟨[], []⟩

def isEmpty (u : Units) : Bool :=
  u.numerator.isEmpty && u.denominator.isEmpty

/-- One symbol or none, if the text is empty, on each side. -/
def single (numerator denominator : String) : Units :=
  ⟨[numerator].filter (· ≠ ""), [denominator].filter (· ≠ "")⟩

def isDivider (c : Char) : Bool :=
  c == '*' || c == '/'

def symbols (cs : List Char) : List String :=
  ((cs.splitOnP isDivider).filter (· ≠ [])).map String.ofList

/-- Symbols before the first slash count for the numerator, all later ones for the denominator:
`a/b/c` is `a/b*c`. -/
def parse (text : String) : Units :=
  ⟨symbols (text.toList.takeWhile (· != '/')), symbols (text.toList.dropWhile (· != '/'))⟩

def text (u : Units) : String :=
  Text.joined "*" u.numerator ++
    (if u.denominator.isEmpty then "" else "/" ++ Text.joined "*" u.denominator)

@[simp] theorem text_none : none.text = "" := rfl

end Units

end StyleValues
