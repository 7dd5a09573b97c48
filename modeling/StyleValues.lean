import StyleValues.Value.Unquote
import StyleValues.Value.Slots
import StyleValues.Host.Access
import StyleValues.Main
import StyleValues.Proofs.KeyedMap.Runs
import StyleValues.Proofs.KeyedMap.DeepUpdate
import StyleValues.Proofs.Host.CastBack
import StyleValues.Proofs.Host.JsonBridge
import StyleValues.Proofs.Host.Plain
import StyleValues.Proofs.Dimension.Compatible
import StyleValues.Proofs.Dimension.ReadBack
import StyleValues.Proofs.KeyedMap.Alike
import StyleValues.Proofs.Host.Observed
import StyleValues.Proofs.KeyedMap.History
import StyleValues.Proofs.Value.Shape
import StyleValues.Proofs.KeyedMap.Equal
import StyleValues.Proofs.Units.NormalText
import StyleValues.Proofs.Host.Routes
import StyleValues.Proofs.Dimension.Returned
import StyleValues.Proofs.KeyedMap.Update
import StyleValues.Proofs.KeyedMap.Visits
import StyleValues.Proofs.Host.Access
import StyleValues.Proofs.Dimension.Comparison
import StyleValues.Proofs.Value.NumberKeys
import StyleValues.Proofs.Host.Leaves
import StyleValues.Proofs.Number.Nearest
import StyleValues.Proofs.Number.Grammar
import StyleValues.Proofs.Dimension.Reading
import StyleValues.Proofs.Value.Unquote
import StyleValues.Proofs.Value.Slots
import StyleValues.Proofs.Json.Exact
