import ByteFlow.Endpoint.Basic
import ByteFlow.Endpoint.Either
import ByteFlow.Layer.Tree
import ByteFlow.Scripted.Device
import ByteFlow.Scripted.Policy
import ByteFlow.Scripted.Stream
import ByteFlow.Sink.Codec
import ByteFlow.Source.Codec
import ByteFlow.Transfer.Document
import ByteFlow.Transfer.Plan
import ByteFlow.Proofs.Ends
import ByteFlow.Proofs.Region
import ByteFlow.Proofs.Layer
import ByteFlow.Proofs.Openness
import ByteFlow.Proofs.Content
import ByteFlow.Proofs.Reading
import ByteFlow.Proofs.Meter.Basic
import ByteFlow.Proofs.Meter.Endpoint
import ByteFlow.Proofs.Meter.Faithful
import ByteFlow.Proofs.Meter.Recorded
import ByteFlow.Proofs.Meter.Depletion
import ByteFlow.Proofs.Capacity
import ByteFlow.Proofs.Codec.Scalar
import ByteFlow.Proofs.Codec.Utf16
import ByteFlow.Proofs.Codec.RoundTrip
import ByteFlow.Proofs.Transfer.Round
import ByteFlow.Proofs.Transfer.Conservation
import ByteFlow.Proofs.Transfer.Bound
import ByteFlow.Proofs.Transfer.Exact
import ByteFlow.Proofs.FalseEnd.Basic
import ByteFlow.Proofs.FalseEnd.Endpoint
import ByteFlow.Proofs.FalseEnd.Layer
import ByteFlow.Proofs.Chain.Course
import ByteFlow.Proofs.Chain.Conduct
import ByteFlow.Proofs.Chain.Verdict
import ByteFlow.Proofs.Chain.Exhaustion
import ByteFlow.Proofs.Stepwise.Basic
import ByteFlow.Proofs.Stepwise.Layer
import ByteFlow.Proofs.Stepwise.Device
import ByteFlow.Proofs.Stepwise.Sink.Tree
import ByteFlow.Proofs.Stepwise.Tree
import ByteFlow.Proofs.Stepwise.Sink.Basic
import ByteFlow.Proofs.Writing.Basic
import ByteFlow.Proofs.Writing.Run
import ByteFlow.Proofs.Meter.Leaves
import ByteFlow.Proofs.Refusal
import ByteFlow.Proofs.Chain.Finish
import ByteFlow.Proofs.Quota.Ledger
import ByteFlow.Proofs.Quota.Crossing
import ByteFlow.Proofs.Quota.Stack
import ByteFlow.Proofs.Quota.Chain
import ByteFlow.Proofs.Quota.Endpoint
import ByteFlow.Proofs.Quota.Sequence
import ByteFlow.Proofs.Quota.Run
import ByteFlow.Proofs.Codec.Truncation
import ByteFlow.Proofs.Codec.Grammar
import ByteFlow.Proofs.Transfer.Count
import ByteFlow.Proofs.Closing.Data
import ByteFlow.Proofs.Closing.Run
import ByteFlow.Proofs.Lossless.Basic
import ByteFlow.Proofs.Lossless.Fill
import ByteFlow.Proofs.Lossless.Drain
import ByteFlow.Proofs.Keeping
import ByteFlow.Proofs.Closing.Again
import ByteFlow.Proofs.Durability.Device
import ByteFlow.Proofs.Durability.Layer
import ByteFlow.Proofs.Durability.Run
import ByteFlow.Proofs.Admission.Basic
import ByteFlow.Proofs.Admission.Endpoint
import ByteFlow.Proofs.Admission.Layer
import ByteFlow.Proofs.Closing.Through
import ByteFlow.Proofs.Transparency
import ByteFlow.Proofs.Bare
import ByteFlow.Proofs.ReadOnly
import ByteFlow.Proofs.Bounds.Region
import ByteFlow.Proofs.Bounds.Stream
import ByteFlow.Proofs.Bounds.Endpoint
import ByteFlow.Proofs.Bounds.Calls
import ByteFlow.Proofs.Bounds.Transfer
import ByteFlow.Proofs.Bounds.World
import ByteFlow.Proofs.Bounds.Safety
import ByteFlow.Proofs.Interruption.Loop
import ByteFlow.Proofs.Interruption.Device
import ByteFlow.Proofs.Interruption.Script
import ByteFlow.Proofs.Writing.Agreement
import ByteFlow.Proofs.Transfer.Negotiation
import ByteFlow.Proofs.Transfer.Strategy
import ByteFlow.Proofs.Digest
import ByteFlow.Proofs.Acceptance.Drain
import ByteFlow.Proofs.Acceptance.Sink
import ByteFlow.Proofs.Acceptance.Transfer
import ByteFlow.Proofs.Acceptance.Run
import ByteFlow.Proofs.Acceptance.Barred
import ByteFlow.Proofs.Acceptance.Digest
import ByteFlow.Proofs.Json.Grammar
import ByteFlow.Proofs.Json.Token
import ByteFlow.Proofs.Json.Reader
import ByteFlow.Proofs.Json.Writer
import ByteFlow.Proofs.Transfer.Settings
import ByteFlow.Proofs.Queue
