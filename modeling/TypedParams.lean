import TypedParams.Config.Build
import TypedParams.Encoding.History
import TypedParams.Journal.Session
import TypedParams.Template.Clock
import TypedParams.TypedValue.Workbench
import TypedParams.Proofs.Config.Mentioned
import TypedParams.Proofs.Config.References
import TypedParams.Proofs.Config.Refusals
import TypedParams.Proofs.Encoding.Contents
import TypedParams.Proofs.Encoding.History
import TypedParams.Proofs.Journal.Handlers
import TypedParams.Proofs.Parameters.Canonical
import TypedParams.Proofs.Parameters.Inference
import TypedParams.Proofs.Parameters.Refusals
import TypedParams.Proofs.Parameters.RoundTrip
import TypedParams.Proofs.Template.Clock
import TypedParams.Proofs.Template.Literals
import TypedParams.Proofs.Template.Separators
import TypedParams.Proofs.Temporal.Bounds
import TypedParams.Proofs.Temporal.Order
import TypedParams.Proofs.TypedValue.Builder
import TypedParams.Proofs.Wire.Spelling
