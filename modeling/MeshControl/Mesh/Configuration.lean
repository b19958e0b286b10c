import MeshControl.Mesh.DestinationRules
import MeshControl.Mesh.ServiceEntries
import MeshControl.Mesh.Sidecars
import MeshControl.Mesh.VirtualServices

/-!
# The configuration of the mesh

Resources of every kind are made from records, certificates and policy edges.

## Main definitions

* `MeshInputs` — what the configuration is made from.
* `MeshInputs.resources?` — the resources of one kind.
* `MeshInputs.configuration` — the resources of every kind.
-/

namespace MeshControl

structure MeshInputs where
  ingress : Ingress
  records : List RouteRecord
  /-- The certificates, if they could be found. -/
  certificates : Option (List Certificate)
  policies : List PolicyEdge

namespace MeshInputs

def resources? (i : MeshInputs) : ResourceKind → Option (List Resource)
  | .gateway => i.certificates.map fun certificates => [i.ingress.gatewayResource certificates]
  | .virtualService => some (RouteRecord.virtualServices i.ingress i.records)
  | .destinationRule => some (RouteRecord.destinationRules i.records)
  | .serviceEntry => some (RouteRecord.serviceEntries i.records)
  | .sidecar => some (PolicyEdge.sidecars i.records i.policies)

/-- The kinds that could be made, with their resources. -/
def configuration (i : MeshInputs) : List (ResourceKind × List Resource) :=
  ResourceKind.all.filterMap fun k => (i.resources? k).map (k, ·)

end MeshInputs

end MeshControl
