import StyleValues.Json.Number

/-! The words and signs of a JSON text. -/

namespace StyleValues

inductive JsonToken
  | openArray
  | closeArray
  | openObject
  | closeObject
  | comma
  | colon
  | null
  | bool (b : Bool)
  | number (n : JsonNumber)
  | string (text : String)

namespace JsonToken

def isSpace (c : Char) : Bool :=
  c == ' ' || c == '\t' || c == '\n' || c == '\r'

def sign? (c : Char) : Option JsonToken :=
  if c = '[' then some .openArray
  else if c = ']' then some .closeArray
  else if c = '\x7b' then some .openObject
  else if c = '\x7d' then some .closeObject
  else if c = ',' then some .comma
  else if c = ':' then some .colon
  else none

def word? (cs : List Char) : Option JsonToken :=
  if cs = ['n', 'u', 'l', 'l'] then some .null
  else if cs = ['t', 'r', 'u', 'e'] then some (.bool true)
  else if cs = ['f', 'a', 'l', 's', 'e'] then some (.bool false)
  else none

def isNumberChar (c : Char) : Bool :=
  c.isDigit || c == '-' || c == '+' || c == '.' || c == 'e' || c == 'E'

def escape? (c : Char) : Option Nat :=
  if c = '"' ∨ c = '\\' ∨ c = '/' then some c.toNat
  else if c = 'b' then some 0x08
  else if c = 'f' then some 0x0C
  else if c = 'n' then some 0x0A
  else if c = 'r' then some 0x0D
  else if c = 't' then some 0x09
  else none

def hexDigit? (c : Char) : Option Nat :=
  if c.isDigit then some (c.toNat - '0'.toNat)
  else if 'a' ≤ c ∧ c ≤ 'f' then some (c.toNat - 'a'.toNat + 10)
  else if 'A' ≤ c ∧ c ≤ 'F' then some (c.toNat - 'A'.toNat + 10)
  else none

def hex? (a b c d : Char) : Option Nat := do
  let a ← hexDigit? a
  let b ← hexDigit? b
  let c ← hexDigit? c
  let d ← hexDigit? d
  some (((a * 16 + b) * 16 + c) * 16 + d)

def prepend (code : Nat) (read : List Nat × List Char) : List Nat × List Char :=
  (code :: read.1, read.2)

/-- The code points of a string up to its closing quote, surrogates still apart, and the text behind
the quote. -/
def codes? : List Char → Option (List Nat × List Char)
  | [] => none
  | '"' :: rest => some ([], rest)
  | '\\' :: 'u' :: a :: b :: c :: d :: rest =>
      (hex? a b c d).bind fun code => (codes? rest).map (prepend code)
  | '\\' :: c :: rest => (escape? c).bind fun code => (codes? rest).map (prepend code)
  | c :: rest => if c.toNat < 0x20 then none else (codes? rest).map (prepend c.toNat)

def joinSurrogates? : List Nat → Option (List Char)
  | [] => some []
  | high :: codes =>
      if 0xD800 ≤ high ∧ high < 0xDC00 then
        match codes with
        | low :: codes =>
            if 0xDC00 ≤ low ∧ low < 0xE000 then
              (joinSurrogates? codes).map
                (Char.ofNat (0x10000 + (high - 0xD800) * 0x400 + (low - 0xDC00)) :: ·)
            else none
        | [] => none
      else if 0xDC00 ≤ high ∧ high < 0xE000 then none
      else (joinSurrogates? codes).map (Char.ofNat high :: ·)

theorem length_lt_of_codes? {cs rest : List Char} {codes : List Nat}
    (h : codes? cs = some (codes, rest)) : rest.length < cs.length := by
  fun_induction codes? cs generalizing codes rest with
  | case1 => simp at h
  | case2 behind =>
    simp only [Option.some.injEq, Prod.mk.injEq] at h
    simp [← h.2]
  | case3 a b c d behind ih | case4 c behind _ ih =>
    obtain ⟨_, -, h⟩ := Option.bind_eq_some_iff.mp h
    obtain ⟨read, found, same⟩ := Option.map_eq_some_iff.mp h
    have := ih found
    simp only [prepend, Prod.mk.injEq] at same
    simp only [← same.2, List.length_cons]
    omega
  | case5 => simp at h
  | case6 c behind _ _ _ _ ih =>
    obtain ⟨read, found, same⟩ := Option.map_eq_some_iff.mp h
    have := ih found
    simp only [prepend, Prod.mk.injEq] at same
    simp only [← same.2, List.length_cons]
    omega

/-- All tokens of a text. Runs of number characters and of letters are one token each, so that
nothing but a sign or a space ends them. -/
def scan? : List Char → Option (List JsonToken)
  | [] => some []
  | c :: rest =>
      if isSpace c then scan? rest
      else if c = '"' then
        match _ : codes? rest with
        | some (codes, behind) => do
            let text ← joinSurrogates? codes
            let tokens ← scan? behind
            some (.string (String.ofList text) :: tokens)
        | none => none
      else if isNumberChar c then do
        let n ← JsonNumber.parse? (c :: rest.takeWhile isNumberChar)
        let tokens ← scan? (rest.dropWhile isNumberChar)
        some (.number n :: tokens)
      else if c.isAlpha then do
        let word ← word? (c :: rest.takeWhile Char.isAlpha)
        let tokens ← scan? (rest.dropWhile Char.isAlpha)
        some (word :: tokens)
      else do
        let sign ← sign? c
        let tokens ← scan? rest
        some (sign :: tokens)
termination_by cs => cs.length
decreasing_by
  all_goals simp only [List.length_cons]
  · omega
  · have := length_lt_of_codes? ‹codes? rest = some _›
    omega
  · have : (rest.dropWhile isNumberChar).length ≤ rest.length :=
      (List.dropWhile_suffix _).length_le
    omega
  · have : (rest.dropWhile Char.isAlpha).length ≤ rest.length :=
      (List.dropWhile_suffix _).length_le
    omega
  · omega

end JsonToken

end StyleValues
