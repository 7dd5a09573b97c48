/-! Texts put side by side with a separator between neighbours. -/

namespace StyleValues.Text

def joined (separator : String) : List String → String
  | [] => ""
  | [text] => text
  | text :: next :: rest => text ++ separator ++ joined separator (next :: rest)

@[simp] theorem joined_nil (separator : String) : joined separator [] = "" := rfl

@[simp] theorem joined_singleton (separator text : String) : joined separator [text] = text := rfl

theorem joined_cons_cons (separator text next : String) (rest : List String) :
    joined separator (text :: next :: rest) =
      text ++ separator ++ joined separator (next :: rest) := rfl

end StyleValues.Text
