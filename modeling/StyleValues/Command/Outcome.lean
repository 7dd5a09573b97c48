import StyleValues.Command.Arguments

/-! What a run of the program prints, and the code it ends with. -/

namespace StyleValues

inductive Outcome
  | printed (text : String)
  | failed (messages : List String)
  | misused
  deriving DecidableEq, Repr

def Outcome.ofWords (words : List String) : Outcome :=
  match Command.ofWords? words with
  | none => .misused
  | some command =>
      match command.run with
      | .ok text => .printed text
      | .error error => .failed error.messages

/-- Success, a failed command and a line that is no command tell themselves apart. -/
def Outcome.exitCode : Outcome → Nat
  | .printed _ => 0
  | .failed _ => 1
  | .misused => 2

def Outcome.output : Outcome → String
  | .printed text => text ++ "\n"
  | _ => ""

def usage : List String :=
  ["Usage: [--log-level LEVEL] [--json-logs] COMMAND", "", "Commands:",
    "  cast JSON [--fingerprint]", "  roundtrip JSON", "  calc LHS (add|sub|mul|div|cmp) RHS",
    "  unit EXPR"]

def Outcome.complaint : Outcome → String
  | .printed _ => ""
  | .failed [] => "Error\n"
  | .failed [message] => "Error: " ++ message ++ "\n"
  | .failed (message :: causes) =>
      "Error: " ++ message ++ "\n\nCaused by:\n" ++
        String.join (causes.map fun cause => "    " ++ cause ++ "\n")
  | .misused => String.join (usage.map (· ++ "\n"))

end StyleValues
