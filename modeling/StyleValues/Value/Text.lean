import StyleValues.Number.Layout
import StyleValues.Text.Joined
import StyleValues.Value.Basic

/-! The text of a value. Two values of one kind and one text are the same key of a map. -/

namespace StyleValues

/-- Numbers from a millionth up to `10 ^ 21` are written without exponent, whole ones without point,
and zero without sign. -/
def Value.numberLayout : Number.Layout where
  tie := .larger
  positional leading := -6 ≤ leading ∧ leading < 21
  pointZero := false
  signedZero := false
  notANumber := "NaN"
  infinity := "Infinity"

def formatNumber (x : Float) : String :=
  Value.numberLayout.text x

def Color.text (c : Color) : String :=
  "rgba(" ++ Text.joined ", " ([c.red, c.green, c.blue, c.alpha].map formatNumber) ++ ")"

def Separator.text : Separator → String
  | .comma => ", "
  | .space => " "

/-- Items in parentheses. A comma after a single item tells its list from a spaced one. -/
def listText (items : List String) (separator : Separator) : String :=
  "(" ++ Text.joined separator.text items ++
    (if items.length = 1 ∧ separator = .comma then ",)" else ")")

def mapText (entries : List (String × String)) : String :=
  "(" ++ Text.joined ", " (entries.map fun e => e.1 ++ ": " ++ e.2) ++ ")"

namespace Value

mutual

/-- Strings stand as they are, without quotes. -/
def text : Value → String
  | .string text => text
  | .number x unit => formatNumber x ++ unit
  | .bool true => "true"
  | .bool false => "false"
  | .null => "null"
  | .color c => c.text
  | .list items separator => listText (itemTexts items) separator
  | .map entries => mapText (entryTexts entries)
  | .error _ => "ERROR!"
termination_by structural v => v

def itemTexts : List Value → List String
  | [] => []
  | v :: rest => v.text :: itemTexts rest
termination_by structural vs => vs

def entryTexts : List (Value × Value) → List (String × String)
  | [] => []
  | (k, v) :: rest => (k.text, v.text) :: entryTexts rest
termination_by structural es => es

end

theorem itemTexts_eq_map (items : List Value) : itemTexts items = items.map text := by
  induction items with
  | nil => rfl
  | cons v rest ih => simp [itemTexts, ih]

theorem entryTexts_eq_map (entries : List (Value × Value)) :
    entryTexts entries = entries.map fun e => (e.1.text, e.2.text) := by
  induction entries with
  | nil => rfl
  | cons e rest ih => simp [entryTexts, ih]

end Value

end StyleValues
