import MeshControl.Api.Service
import MeshControl.Certificate.Discovery
import MeshControl.Http.Target
import MeshControl.Json.Printer
import MeshControl.Main
import MeshControl.Publisher.Pipeline
import MeshControl.Reconciler.Tasks
import MeshControl.Scheduler.Client
import MeshControl.Proofs.BackendSet
import MeshControl.Proofs.Reconciler.Changes
import MeshControl.Proofs.Reconciler.EffectiveLog
import MeshControl.Proofs.Reconciler.Interleaving
import MeshControl.Proofs.Publisher.Tick
import MeshControl.Proofs.Publisher.Run
import MeshControl.Proofs.Publisher.Versions
import MeshControl.Proofs.Publisher.Churn
import MeshControl.Proofs.Mesh.Isolation
import MeshControl.Proofs.Mesh.References
import MeshControl.Proofs.Mesh.Precedence
import MeshControl.Proofs.Mesh.Permuted
import MeshControl.Proofs.Edits
import MeshControl.Proofs.Mapping.Sums
import MeshControl.Proofs.Route.Index
import MeshControl.Proofs.Checks
import MeshControl.Proofs.Api.Admission
import MeshControl.Proofs.Pipeline
import MeshControl.Proofs.Api.Resolution
import MeshControl.Proofs.Operations
import MeshControl.Proofs.BackendOrder
import MeshControl.Proofs.Api.Requests
import MeshControl.Proofs.Api.Replacement
import MeshControl.Proofs.Json.Numbers
import MeshControl.Proofs.Json.Record
import MeshControl.Proofs.Json.RoundTrip
import MeshControl.Proofs.Api.Written
import MeshControl.Proofs.Api.Export
import MeshControl.Proofs.Api.Lookup
import MeshControl.Proofs.Reconciler.Provenance
import MeshControl.Proofs.Json.Codec
import MeshControl.Proofs.Codecs
import MeshControl.Proofs.Resource.ReadBack
import MeshControl.Proofs.Tasks.Moves
import MeshControl.Proofs.Tasks.Log
import MeshControl.Proofs.Tasks.Fuel
import MeshControl.Proofs.Tasks.Schedules
import MeshControl.Proofs.Tasks.Observed
import MeshControl.Proofs.Reconciler.Repetition
import MeshControl.Proofs.Scheduler.Framing
import MeshControl.Proofs.Mesh.Egress
import MeshControl.Proofs.Mesh.SharedHosts
import MeshControl.Proofs.Mapping.Shares
import MeshControl.Proofs.Certificate.Enumeration
import MeshControl.Proofs.Startup
import MeshControl.Proofs.Duration
import MeshControl.Proofs.Collector.Sorted
import MeshControl.Proofs.BackendReplay
import MeshControl.Proofs.Collector.Interrupted
