import StyleValues.Command.Basic

/-! Commands read from the arguments of a program. -/

namespace StyleValues

inductive Flag
  | logLevel
  | jsonLogs
  | fingerprint
  deriving DecidableEq, Repr

/-- A flag with its text, a text, or a text behind a double dash. -/
inductive Argument
  | flag (flag : Flag)
  | text (text : String)
  | literal (text : String)
  deriving DecidableEq, Repr

namespace Argument

def looksLikeFlag (word : String) : Bool :=
  word != "-" && word.startsWith "-"

/-- Behind a double dash every word is a text. The log level is the next word, or stands behind an
equals sign. -/
def ofWords? : List String → Option (List Argument)
  | [] => some []
  | "--" :: rest => some (rest.map .literal)
  | "--json-logs" :: rest => (ofWords? rest).map (.flag .jsonLogs :: ·)
  | "--fingerprint" :: rest => (ofWords? rest).map (.flag .fingerprint :: ·)
  | "--log-level" :: level :: rest =>
      if looksLikeFlag level then none else (ofWords? rest).map (.flag .logLevel :: ·)
  | word :: rest =>
      if word.startsWith "--log-level=" then (ofWords? rest).map (.flag .logLevel :: ·)
      else if looksLikeFlag word then none
      else (ofWords? rest).map (.text word :: ·)

def flag? : Argument → Option Flag
  | .flag f => some f
  | _ => none

def text? : Argument → Option String
  | .flag _ => none
  | .text t | .literal t => some t

end Argument

def Command.ofTexts? (name : String) (texts : List String) (fingerprint : Bool) : Option Command :=
  match name, texts, fingerprint with
  | "cast", [json], fingerprint => some (.cast json fingerprint)
  | "roundtrip", [json], false => some (.roundtrip json)
  | "calc", [left, operation, right], false =>
      (Operation.ofName? operation).map (.calc left · right)
  | "unit", [text], false => some (.unit text)
  | _, _, _ => none

/-- The first text names the command. A flag stands at most once before the name and at most once
behind it. -/
def Command.ofWords? (words : List String) : Option Command := do
  let arguments ← Argument.ofWords? words
  let before := (arguments.takeWhile (·.flag?.isSome)).filterMap Argument.flag?
  match arguments.dropWhile (·.flag?.isSome) with
  | .text name :: behind =>
      let flags := behind.filterMap Argument.flag?
      if before.Nodup ∧ .fingerprint ∉ before ∧ flags.Nodup then
        Command.ofTexts? name (behind.filterMap Argument.text?) (.fingerprint ∈ flags)
      else none
  | _ => none

end StyleValues
