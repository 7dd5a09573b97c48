import Mathlib
import StyleValues.Number.Literal

/-! Where a number ends, told by a scan over the bytes of a text. The scan ends between two
characters, where the scan over the characters ends. -/

namespace StyleValues.Number

def isSign (c : Char) : Bool :=
  c == '+' || c == '-'

def isExponentLetter (c : Char) : Bool :=
  c == 'e' || c == 'E'

def standsAt (p : Char → Bool) (bytes : List UInt8) (i : Nat) : Bool :=
  bytes[i]?.any fun b => p (.ofUInt8 b)

/-- The index behind all bytes from an index on that are characters of a kind. -/
def skip (p : Char → Bool) (bytes : List UInt8) (i : Nat) : Nat :=
  i + ((bytes.drop i).takeWhile fun b => p (.ofUInt8 b)).length

def skipSign (bytes : List UInt8) (i : Nat) : Nat :=
  if standsAt isSign bytes i then i + 1 else i

/-- Behind an exponent, or back at its letter if there are no digits. -/
def skipExponent (bytes : List UInt8) (stop : Nat) : Nat :=
  if standsAt isExponentLetter bytes stop then
    let digits := skipSign bytes (stop + 1)
    let last := skip Char.isDigit bytes digits
    if digits < last then last else stop
  else stop

def numberLength? (bytes : List UInt8) : Option Nat :=
  let start := skipSign bytes 0
  let stop := skip isDigitOrPoint bytes start
  if stop = start then none else some (skipExponent bytes stop)

def utf8 (cs : List Char) : List UInt8 :=
  cs.flatMap String.utf8EncodeChar

def bytes (text : String) : List UInt8 :=
  text.toByteArray.data.toList

theorem bytes_ofList (cs : List Char) : bytes (.ofList cs) = utf8 cs := by
  rw [bytes, String.toByteArray_ofList]
  exact List.toList_data_toByteArray

theorem length_utf8 (cs : List Char) : (utf8 cs).length = (String.ofList cs).utf8ByteSize := by
  rw [← bytes_ofList]
  rfl

theorem utf8_append (front back : List Char) : utf8 (front ++ back) = utf8 front ++ utf8 back :=
  List.flatMap_append

def Ascii (p : Char → Bool) : Prop := ∀ c, p c → c.toNat < 128

theorem utf8EncodeChar_of_lt {c : Char} (low : c.toNat < 128) :
    ∃ b, String.utf8EncodeChar c = [b] ∧ Char.ofUInt8 b = c := by
  have size : c.utf8Size = 1 :=
    Char.utf8Size_eq_one_iff.mpr (UInt32.le_iff_toNat_le.mpr (Nat.le_of_lt_succ low))
  refine ⟨c.val.toUInt8, String.utf8EncodeChar_eq_singleton size, ?_⟩
  apply Char.ext
  apply UInt32.toNat_inj.mp
  change c.val.toUInt8.toUInt32.toNat = c.toNat
  rw [UInt8.toNat_toUInt32, UInt32.toNat_toUInt8]
  exact Nat.mod_eq_of_lt (low.trans (by decide))

theorem utf8EncodeChar_of_ge {c : Char} (high : 128 ≤ c.toNat) :
    ∃ b rest, String.utf8EncodeChar c = b :: rest ∧ 128 ≤ (Char.ofUInt8 b).toNat := by
  have code (n : Nat) (low : 128 ≤ n) (small : n < 256) :
      128 ≤ (Char.ofUInt8 (UInt8.ofNat n)).toNat := by
    change 128 ≤ (UInt8.ofNat n).toUInt32.toNat
    rw [UInt8.toNat_toUInt32, UInt8.toNat_ofNat', Nat.mod_eq_of_lt small]
    exact low
  have notAscii : ¬c.val.toNat ≤ 0x7f := by
    change ¬c.toNat ≤ 127
    omega
  unfold String.utf8EncodeChar
  dsimp only
  rw [if_neg notAscii]
  split
  · exact ⟨_, _, rfl, code _ (by omega) (by omega)⟩
  split
  · exact ⟨_, _, rfl, code _ (by omega) (by omega)⟩
  · exact ⟨_, _, rfl, code _ (by omega) (by omega)⟩

section Ascii

variable {p : Char → Bool} (ascii : Ascii p)
include ascii

theorem head_utf8 (cs : List Char) :
    (utf8 cs).head?.any (fun b => p (.ofUInt8 b)) = cs.head?.any p := by
  cases cs with
  | nil => rfl
  | cons c rest =>
    rw [utf8, List.flatMap_cons]
    by_cases low : c.toNat < 128
    · obtain ⟨b, encoded, same⟩ := utf8EncodeChar_of_lt low
      rw [encoded]
      exact congrArg p same
    · obtain ⟨b, behind, encoded, high⟩ := utf8EncodeChar_of_ge (not_lt.mp low)
      have here : p c = false := by
        by_contra kind
        exact low (ascii c (by simpa using kind))
      have there : p (.ofUInt8 b) = false := by
        by_contra kind
        exact high.not_gt (ascii _ (by simpa using kind))
      rw [encoded]
      exact there.trans here.symm

theorem takeWhile_utf8 (cs : List Char) :
    (utf8 cs).takeWhile (fun b => p (.ofUInt8 b)) = utf8 (cs.takeWhile p) := by
  induction cs with
  | nil => rfl
  | cons c rest ih =>
    by_cases kind : p c
    · obtain ⟨b, encoded, same⟩ := utf8EncodeChar_of_lt (ascii c kind)
      rw [List.takeWhile_cons_of_pos kind, utf8, utf8, List.flatMap_cons, List.flatMap_cons,
        encoded, List.singleton_append, List.singleton_append,
        List.takeWhile_cons_of_pos (by rwa [same])]
      exact congrArg (b :: ·) ih
    · have first := head_utf8 ascii (c :: rest)
      rw [List.takeWhile_cons_of_neg kind]
      cases encoded : utf8 (c :: rest) with
      | nil => rfl
      | cons b behind =>
        rw [encoded] at first
        have other : ¬p (.ofUInt8 b) := by
          intro same
          exact kind (first.symm.trans same)
        exact List.takeWhile_cons_of_neg other

theorem standsAt_utf8 (front tail : List Char) :
    standsAt p (utf8 (front ++ tail)) (utf8 front).length = tail.head?.any p := by
  rw [standsAt, utf8_append, List.getElem?_append_right le_rfl, Nat.sub_self,
    ← List.head?_eq_getElem?]
  exact head_utf8 ascii tail

theorem skip_utf8 (front tail : List Char) :
    skip p (utf8 (front ++ tail)) (utf8 front).length =
      (utf8 (front ++ tail.takeWhile p)).length := by
  rw [skip, utf8_append, List.drop_left, takeWhile_utf8 ascii, utf8_append, List.length_append]

end Ascii

theorem ascii_isDigit : Ascii Char.isDigit := by
  intro c digit
  have bounds := Char.isDigit_iff_toNat.mp digit
  change 48 ≤ c.toNat ∧ c.toNat ≤ 57 at bounds
  omega

theorem ascii_beq {d : Char} (low : d.toNat < 128) : Ascii (· == d) := by
  intro c same
  rwa [eq_of_beq same]

theorem Ascii.or {p q : Char → Bool} (left : Ascii p) (right : Ascii q) :
    Ascii fun c => p c || q c :=
  fun c either => ((Bool.or_eq_true ..).mp either).elim (left c) (right c)

theorem ascii_isDigitOrPoint : Ascii isDigitOrPoint :=
  ascii_isDigit.or (ascii_beq (by decide))

theorem ascii_isSign : Ascii isSign :=
  (ascii_beq (by decide)).or (ascii_beq (by decide))

theorem ascii_isExponentLetter : Ascii isExponentLetter :=
  (ascii_beq (by decide)).or (ascii_beq (by decide))

theorem length_utf8_concat {p : Char → Bool} (ascii : Ascii p) (front : List Char) {c : Char}
    (kind : p c) : (utf8 (front ++ [c])).length = (utf8 front).length + 1 := by
  obtain ⟨b, encoded, -⟩ := utf8EncodeChar_of_lt (ascii c kind)
  have one : utf8 [c] = [b] := by rw [utf8, List.flatMap_singleton, encoded]
  rw [utf8_append, List.length_append, one, List.length_singleton]

theorem utf8_eq_nil {cs : List Char} : utf8 cs = [] ↔ cs = [] := by
  refine ⟨fun empty => ?_, fun empty => by rw [empty]; rfl⟩
  exact List.eq_nil_iff_forall_not_mem.mpr fun c member =>
    String.utf8EncodeChar_ne_nil (List.flatMap_eq_nil_iff.mp empty c member)

theorem length_utf8_lt_iff (front cs : List Char) :
    (utf8 front).length < (utf8 (front ++ cs)).length ↔ cs ≠ [] := by
  rw [utf8_append, List.length_append, Nat.lt_add_right_iff_pos, List.length_pos_iff, ne_eq,
    utf8_eq_nil]

theorem length_utf8_eq_iff (front cs : List Char) :
    (utf8 (front ++ cs)).length = (utf8 front).length ↔ cs = [] := by
  rw [utf8_append, List.length_append, Nat.add_eq_left, List.length_eq_zero_iff, utf8_eq_nil]

section Scan

variable (front tail : List Char)

theorem skipSign_utf8 :
    ∃ sign, tail = sign ++ (splitSign tail).2 ∧
      skipSign (utf8 (front ++ tail)) (utf8 front).length = (utf8 (front ++ sign)).length := by
  rw [skipSign, standsAt_utf8 ascii_isSign]
  unfold splitSign
  split
  · exact ⟨['+'], rfl, (length_utf8_concat ascii_isSign front (by decide)).symm⟩
  · exact ⟨['-'], rfl, (length_utf8_concat ascii_isSign front (by decide)).symm⟩
  · rename_i noPlus noMinus
    refine ⟨[], rfl, ?_⟩
    rw [List.append_nil, if_neg]
    cases tail with
    | nil => decide
    | cons c rest =>
      simp only [List.head?_cons, Option.any_some, isSign, Bool.or_eq_true, beq_iff_eq]
      rintro (rfl | rfl)
      · exact noPlus rest rfl
      · exact noMinus rest rfl

theorem skipExponent_utf8 :
    ∃ written, tail = written ++ (splitExponent tail).2 ∧
      skipExponent (utf8 (front ++ tail)) (utf8 front).length =
        (utf8 (front ++ written)).length := by
  rw [skipExponent, standsAt_utf8 ascii_isExponentLetter]
  cases tail with
  | nil => exact ⟨[], rfl, by simp⟩
  | cons letter after =>
    by_cases kind : isExponentLetter letter
    · obtain ⟨sign, split, signed⟩ := skipSign_utf8 (front ++ [letter]) after
      have behindSign := skip_utf8 ascii_isDigit (front ++ [letter] ++ sign) (splitSign after).2
      have regroup : front ++ letter :: after = front ++ [letter] ++ after := by simp
      have letters : (letter == 'e' || letter == 'E') = true := kind
      rw [List.append_assoc _ sign, ← split] at behindSign
      rw [List.head?_cons, Option.any_some, if_pos kind, regroup]
      dsimp only
      rw [← length_utf8_concat ascii_isExponentLetter front kind, signed, behindSign]
      unfold splitExponent
      dsimp only
      rw [letters, Bool.true_and]
      simp only [length_utf8_lt_iff]
      cases digits : (splitSign after).2.takeWhile Char.isDigit with
      | nil => exact ⟨[], rfl, by simp⟩
      | cons c rest =>
        refine ⟨letter :: (sign ++ c :: rest), ?_, by simp⟩
        rw [List.isEmpty_cons, Bool.not_false, if_pos rfl, ← digits, List.cons_append,
          List.append_assoc, List.takeWhile_append_dropWhile, ← split]
    · have letters : (letter == 'e' || letter == 'E') = false :=
        Bool.eq_false_of_not_eq_true kind
      refine ⟨[], ?_, ?_⟩
      · unfold splitExponent
        dsimp only
        rw [letters]
        rfl
      · rw [List.head?_cons, Option.any_some, if_neg kind, List.append_nil]

/-- The scan over bytes takes the characters in front of the text behind the number. -/
theorem numberLength?_utf8 (cs : List Char) :
    ∃ front, cs = front ++ (splitExponent ((splitSign cs).2.dropWhile isDigitOrPoint)).2 ∧
      numberLength? (utf8 cs) =
        if (splitSign cs).2.takeWhile isDigitOrPoint = [] then none
        else some (utf8 front).length := by
  obtain ⟨sign, split, signed⟩ := skipSign_utf8 [] cs
  have atStart : skipSign (utf8 cs) 0 = (utf8 sign).length := signed
  have behindSign := skip_utf8 ascii_isDigitOrPoint sign (splitSign cs).2
  rw [← split] at behindSign
  generalize (splitSign cs).2 = unsigned at *
  obtain ⟨written, exponent, behindRun⟩ :=
    skipExponent_utf8 (sign ++ unsigned.takeWhile isDigitOrPoint)
      (unsigned.dropWhile isDigitOrPoint)
  rw [List.append_assoc, List.takeWhile_append_dropWhile, ← split] at behindRun
  refine ⟨sign ++ unsigned.takeWhile isDigitOrPoint ++ written, ?_, ?_⟩
  · rw [List.append_assoc _ written, ← exponent, List.append_assoc,
      List.takeWhile_append_dropWhile]
    exact split
  · rw [numberLength?, atStart, behindSign, behindRun]
    exact if_congr (length_utf8_eq_iff sign _) rfl rfl

end Scan

/-- The scan ends between two characters of any text, whatever they are. -/
theorem isValid_of_numberLength? {text : String} {n : Nat}
    (found : numberLength? (bytes text) = some n) : String.Pos.Raw.IsValid text ⟨n⟩ := by
  obtain ⟨front, split, scanned⟩ := numberLength?_utf8 text.toList
  rw [← bytes_ofList, String.ofList_toList, found] at scanned
  generalize (splitExponent _).2 = rest at split
  split at scanned
  · cases scanned
  refine String.Pos.Raw.isValid_iff_exists_append.mpr ⟨.ofList front, .ofList rest, ?_, ?_⟩
  · rw [← String.ofList_append, ← split, String.ofList_toList]
  · rw [Option.some.inj scanned, length_utf8]
    rfl

theorem numberLength?_of_literal? {front rest : List Char} {x : Float}
    (found : literal? (front ++ rest) = some (x, rest)) :
    numberLength? (bytes (.ofList (front ++ rest))) = some (String.ofList front).utf8ByteSize := by
  obtain ⟨taken, split, scanned⟩ := numberLength?_utf8 (front ++ rest)
  unfold literal? at found
  dsimp only at found
  split at found
  · cases found
  rename_i d pointed
  have behind := congrArg Prod.snd (Option.some.inj found)
  have some : (splitSign (front ++ rest)).2.takeWhile isDigitOrPoint ≠ [] := by
    intro none
    rw [none] at pointed
    cases pointed
  rw [behind] at split
  rw [bytes_ofList, scanned, if_neg some, ← List.append_cancel_right split, length_utf8]

end StyleValues.Number
