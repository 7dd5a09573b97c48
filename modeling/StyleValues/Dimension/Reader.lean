import StyleValues.Dimension.Basic
import StyleValues.Number.Literal
import StyleValues.Text.Blank

/-! Dimensions read from text: a number with units behind it. -/

namespace StyleValues

def Dimension.parse (text : String) : Except UnitError Dimension :=
  let cs := Text.trimmed text.toList
  match Number.literal? cs with
  | some (x, rest) => pure (.ofNumber x (String.ofList (Text.trimmed rest)))
  | none => throw (.unreadable (String.ofList cs))

end StyleValues
