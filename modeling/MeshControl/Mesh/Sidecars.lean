import MeshControl.Mesh.Host
import MeshControl.Policy
import MeshControl.Resource.Body

/-!
# Sidecars of policy sources

Nothing may be sent anywhere, except from the source of an edge to the internal hosts of its
destination.

## Main definitions

* `PolicyEdge.reachable` — the hosts that an edge opens.
* `Sidecar.ofEdges` — the sidecar of one source.
* `PolicyEdge.sidecars` — the resources of all sources.
-/

namespace MeshControl

namespace PolicyEdge

def reachable (records : List RouteRecord) (e : PolicyEdge) : List String :=
  (records.filter fun r => r.internal && r.processId = e.destination).map fun r =>
    MeshHost.internalNamespace ++ r.hostname

end PolicyEdge

namespace Sidecar

/-- The name of the sidecar for workloads that no other one selects. -/
def defaultName : String := "default"

def denying : Sidecar := ⟨none, [[]]⟩

/-- The sidecar of a source, with the hosts in order. -/
def ofEdges (records : List RouteRecord) (source : ProcessId) (edges : List PolicyEdge) :
    Sidecar where
  selector := some (.ofProcess source)
  egress := [(SortedSet.ofList (edges.flatMap (·.reachable records))).toList]

end Sidecar

/-- The sidecars by name. A source cannot take the name of the default. -/
def PolicyEdge.sidecarTable (records : List RouteRecord) (edges : List PolicyEdge) :
    Table String Sidecar :=
  Table.insert
    (.ofList ((Table.group (·.source) edges).entries.map fun e =>
      (e.1, Sidecar.ofEdges records e.1 e.2)))
    Sidecar.defaultName .denying

/-- The default sidecar and one for every other source. -/
def PolicyEdge.sidecars (records : List RouteRecord) (edges : List PolicyEdge) : List Resource :=
  (sidecarTable records edges).entries.map fun e => .ofBody e.1 (.sidecar e.2)

end MeshControl
