import MeshControl.Association
import MeshControl.Mapping.Directory
import MeshControl.Route.Directory
import MeshControl.Vip

/-!
# Replacing the desired state

A caller may replace whole directories at once. All that is sent is checked before any of it is
stored.

## Main definitions

* `Route.accepted` — a route as it is stored, or why it is refused.
* `SyncRequest` — the sections to be replaced, with their written form.
-/

namespace MeshControl

/-- A route as it is stored: with its host in lower case and, if it is internal, with a virtual
address. -/
def Route.accepted (r : Route) : Except Invalid Route := do
  r.validate
  let named := { r with host := r.hostname }
  if named.isInternal then
    return { named with
      internal := true
      vip := some (named.vip.getD (Vip.ofHostname named.hostname).text) }
  else return named

structure SyncRequest where
  routes : Option (List Route)
  mappings : Option (List RouteMapping)
  associations : Option (List Association)
  deriving DecidableEq, Inhabited

namespace SyncRequest

def ofJson : Json.Decoder SyncRequest :=
  Json.record ["routes", "mappings", "associations"] fun r =>
    SyncRequest.mk <$> r.optional "routes" (Json.asList Route.ofJson)
      <*> r.optional "mappings" (Json.asList RouteMapping.ofJson)
      <*> r.optional "associations" (Json.asList Association.ofJson)

/-- The request with its routes as they are stored, or why it is refused. -/
def accepted (q : SyncRequest) : Except Invalid SyncRequest := do
  let routes ← q.routes.mapM (·.mapM Route.accepted)
  (q.mappings.getD []).forM RouteMapping.validate
  (q.associations.getD []).forM Association.validate
  return { q with routes }

end SyncRequest

end MeshControl
