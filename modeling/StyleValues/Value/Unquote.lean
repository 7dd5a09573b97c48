import StyleValues.Text.Blank
import StyleValues.Value.Kind

/-! Strings freed from the quotes around them. -/

namespace StyleValues

def between? (quote : Char) (cs : List Char) : Option (List Char) :=
  match cs with
  | [] => none
  | first :: rest =>
      if first = quote ∧ rest.getLast? = some quote then some rest.dropLast else none

/-- Takes away one pair of quotes, unless a line ends between them. -/
def withoutQuotes (cs : List Char) : List Char :=
  match between? '"' cs <|> between? '\'' cs with
  | some inner => if inner.any Text.isLineTerminator then cs else inner
  | none => cs

/-- Null stays null. -/
def Value.unquote : Value → Except ValueError Value
  | .null => pure .null
  | .string text => pure (.string (String.ofList (withoutQuotes text.toList)))
  | v => throw (.unexpectedKind .string v.text)

end StyleValues
