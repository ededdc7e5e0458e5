import LayerPipeline.Command.Desk
import LayerPipeline.Main
import LayerPipeline.Number.Exact
import LayerPipeline.Proofs.Planning.Coverage
import LayerPipeline.Proofs.Planning.Optimality
import LayerPipeline.Proofs.Planning.RosterOrder
import LayerPipeline.Proofs.Planning.Suitability
import LayerPipeline.Proofs.Planning.Validity
import LayerPipeline.Proofs.Service.Accounting
import LayerPipeline.Proofs.Service.Composition
import LayerPipeline.Proofs.Service.ReleaseOnce
import LayerPipeline.Proofs.Wire.RoundTrip
import LayerPipeline.Service.Network
import LayerPipeline.Proofs.Wire.Stream
import LayerPipeline.Proofs.Service.Calls
import LayerPipeline.Proofs.Service.Failure
import LayerPipeline.Proofs.Service.WorkerTable
import LayerPipeline.Proofs.Service.Teardown
import LayerPipeline.Proofs.Service.Rollback
import LayerPipeline.Proofs.Service.Orphans
import LayerPipeline.Proofs.Link.Conversation
import LayerPipeline.Proofs.Service.Permits
import LayerPipeline.Proofs.Service.Enrolment
import LayerPipeline.Proofs.Service.Exclusion
import LayerPipeline.Proofs.Service.Outbox
import LayerPipeline.Proofs.Service.Ledger
import LayerPipeline.Proofs.Service.Roster
import LayerPipeline.Proofs.Service.Liveness
import LayerPipeline.Proofs.Service.Lifecycle
import LayerPipeline.Proofs.Service.Replanning
import LayerPipeline.Proofs.Json.Reading
import LayerPipeline.Proofs.Json.Legible
import LayerPipeline.Proofs.Json.Line
import LayerPipeline.Proofs.OrderedDictionary
import LayerPipeline.Proofs.Plan.PlanFile
import LayerPipeline.Proofs.Profile.ProfileFile
import LayerPipeline.Proofs.Service.Overcommitment
import LayerPipeline.Proofs.Tensor.Validation
import LayerPipeline.Proofs.Planning.Outcome
import LayerPipeline.Proofs.Planning.Annotation
import LayerPipeline.Index
import LayerPipeline.OrderedDictionary
import LayerPipeline.Proofs.Matching.Devices
import LayerPipeline.Proofs.Matching.Selection
import LayerPipeline.Proofs.Matching.Accommodation
import LayerPipeline.Proofs.Link.Retries
import LayerPipeline.Proofs.Plan.Validation
import LayerPipeline.Proofs.Tensor.SinglePrecision
import LayerPipeline.Proofs.Service.SlidingWindow
import LayerPipeline.Proofs.Service.SessionHandles
import LayerPipeline.Proofs.Profile.LayerOrder
import LayerPipeline.Proofs.Number.Rounding
import LayerPipeline.Proofs.Number.Machine
import LayerPipeline.Proofs.Profile.Percentiles
import LayerPipeline.Proofs.Service.MemoryBounds
import LayerPipeline.Proofs.Service.Introduction
import LayerPipeline.Proofs.Service.MemoryReport
