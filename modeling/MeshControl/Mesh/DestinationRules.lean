import MeshControl.Mesh.Host
import MeshControl.Resource.Body

/-!
# Destination rules of hosts

The records of a host give a destination rule with a subset for every process among them.

## Main definitions

* `DestinationRule.ofRecords` — the destination rule of one host.
* `RouteRecord.destinationRules` — the resources of all hosts.
-/

namespace MeshControl

namespace DestinationRule

def subset (id : ProcessId) : Subset := ⟨id, .ofProcess id⟩

def ofRecords (host : MeshHost) (records : List RouteRecord) : DestinationRule where
  host := host.hostname
  subsets := (SortedSet.ofList (records.map (·.processId))).toList.map subset

end DestinationRule

/-- The destination rule of every host that has records. -/
def RouteRecord.destinationRules (records : List RouteRecord) : List Resource :=
  (byHost records).entries.map fun e =>
    .ofBody (e.1.resourceName "rule-for") (.destinationRule (DestinationRule.ofRecords e.1 e.2))

end MeshControl
