import MeshControl.Resource.Basic
import MeshControl.Resource.DestinationRule
import MeshControl.Resource.Gateway
import MeshControl.Resource.ServiceEntry
import MeshControl.Resource.Sidecar
import MeshControl.Resource.VirtualService

/-!
# Bodies of resources

A body of any of the five kinds.

## Main definitions

* `Resource.Body` — the kinds of bodies, with their written forms.
* `Resource.ofBody` — the resource with a name and a body.
-/

namespace MeshControl.Resource

inductive Body where
  | gateway (g : Gateway)
  | virtualService (s : VirtualService)
  | destinationRule (r : DestinationRule)
  | serviceEntry (e : ServiceEntry)
  | sidecar (s : Sidecar)
  deriving DecidableEq, Inhabited

namespace Body

def kind : Body → ResourceKind
  | gateway _ => .gateway
  | virtualService _ => .virtualService
  | destinationRule _ => .destinationRule
  | serviceEntry _ => .serviceEntry
  | sidecar _ => .sidecar

def toJson : Body → Json
  | gateway g => g.toJson
  | virtualService s => s.toJson
  | destinationRule r => r.toJson
  | serviceEntry e => e.toJson
  | sidecar s => s.toJson

def ofJson (kind : ResourceKind) : Json.Decoder Body := fun v =>
  match kind with
  | .gateway => gateway <$> Gateway.ofJson v
  | .virtualService => virtualService <$> VirtualService.ofJson v
  | .destinationRule => destinationRule <$> DestinationRule.ofJson v
  | .serviceEntry => serviceEntry <$> ServiceEntry.ofJson v
  | .sidecar => sidecar <$> Sidecar.ofJson v

end Body

def ofBody (name : String) (body : Body) : Resource := ⟨name, body.toJson⟩

end MeshControl.Resource
