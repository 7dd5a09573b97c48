import StyleValues.Dimension.Basic
import StyleValues.KeyedMap.Basic
import StyleValues.Text.Quoted

/-! Values as the program around the preprocessor works with them. -/

namespace StyleValues

inductive CastError
  | illegal (text : String)
  | unsupported (text : String)
  | units (cause : UnitError)
  | value (cause : ValueError)
  deriving DecidableEq, Repr

def CastError.message : CastError → String
  | .illegal text => "Not a legal Sass value: " ++ text
  | .unsupported text => "Don't know how to coerce: " ++ text
  | .units cause => cause.message
  | .value cause => cause.message

/-- A value of the program's own type, which knows what value it stands for, or why it stands for
none. It is assumed to give one outcome however often it is asked. Two of them are equal if they are
one and the same. -/
structure Custom where
  name : String
  identity : Nat
  outcome : Except CastError Value

/-- A list may leave its separator open. A handle is a function or the like, known by a description
only. -/
inductive Host
  | null
  | bool (b : Bool)
  | number (x : Float)
  | string (text : String)
  | list (items : List Host) (separator : Option Separator)
  | object (fields : Table Host)
  | dimension (d : Dimension)
  | map (m : KeyedMap)
  | tagged (v : Value)
  | custom (c : Custom)
  | handle (description : String)

namespace Host

mutual

def same : Host → Host → Bool
  | .null, .null => true
  | .bool a, .bool b => a == b
  | .number x, .number y => x == y
  | .string a, .string b => a == b
  | .list xs s, .list ys t => sameItems xs ys && s == t
  | .object a, .object b => sameTable a b
  | .dimension a, .dimension b => a == b
  | .map m, .map n => m.same n
  | .tagged v, .tagged w => v == w
  | .custom a, .custom b => a.identity == b.identity
  | .handle a, .handle b => a == b
  | _, _ => false
termination_by structural a => a

def sameItems : List Host → List Host → Bool
  | [], [] => true
  | a :: as, b :: bs => a.same b && sameItems as bs
  | _, _ => false
termination_by structural as => as

def sameTable : Table Host → Table Host → Bool
  | ⟨as⟩, ⟨bs⟩ => sameFields as bs
termination_by structural t => t

def sameFields : List (String × Host) → List (String × Host) → Bool
  | [], [] => true
  | (k, a) :: as, (l, b) :: bs => k == l && a.same b && sameFields as bs
  | _, _ => false
termination_by structural as => as

end

instance : Inhabited Host := ⟨.null⟩

instance : BEq Host := ⟨same⟩

def isNull : Host → Bool
  | .null => true
  | _ => false

def bool? : Host → Option Bool
  | .bool b => some b
  | _ => none

def number? : Host → Option Float
  | .number x => some x
  | _ => none

def string? : Host → Option String
  | .string text => some text
  | _ => none

def items? : Host → Option (List Host)
  | .list items _ => some items
  | _ => none

def fields? : Host → Option (Table Host)
  | .object fields => some fields
  | _ => none

def dimension? : Host → Option Dimension
  | .dimension d => some d
  | _ => none

def keyedMap? : Host → Option KeyedMap
  | .map m => some m
  | _ => none

def tagged? : Host → Option Value
  | .tagged v => some v
  | _ => none

/-- Numbers are written without exponent, whatever their size, and zero keeps its sign. -/
def numberLayout : Number.Layout where
  tie := .larger
  positional _ := true
  pointZero := false
  signedZero := true
  notANumber := "NaN"
  infinity := "inf"

mutual

def text : Host → String
  | .null => "null"
  | .bool true => "true"
  | .bool false => "false"
  | .number x => numberLayout.text x
  | .string text => Text.quoted text
  | .list items _ => "[" ++ Text.joined ", " (itemTexts items) ++ "]"
  | .object fields => "\x7b" ++ Text.joined ", " (tableTexts fields) ++ "\x7d"
  | .dimension d => d.text
  | .map m => m.text
  | .tagged v => v.text
  | .custom c => c.name
  | .handle description => description
termination_by structural h => h

def itemTexts : List Host → List String
  | [] => []
  | h :: rest => h.text :: itemTexts rest
termination_by structural hs => hs

def tableTexts : Table Host → List String
  | ⟨fields⟩ => fieldTexts fields
termination_by structural t => t

def fieldTexts : List (String × Host) → List String
  | [] => []
  | (key, h) :: rest => (Text.quoted key ++ ": " ++ h.text) :: fieldTexts rest
termination_by structural fs => fs

end

end Host

end StyleValues
