import MeshControl.Association
import MeshControl.Mapping.Directory
import MeshControl.Reconciler.Basic
import MeshControl.Route.Directory
import MeshControl.RouteRecord
import MeshControl.Vip

/-!
# Collecting records

The three directories and the live backends are joined into records: one for every mapping whose
route is stored, and every scheduler process associated with its process.

## Main definitions

* `DesiredState` — the three directories.
* `LiveBackends` — a source of backend sets.
* `DesiredState.collect` — the join, in the order of the records.
-/

namespace MeshControl

/-- What callers have stated. -/
structure DesiredState where
  routes : Route.Directory
  mappings : RouteMapping.Directory
  associations : Association.Directory
  deriving DecidableEq, Inhabited

/-- The backend sets of every scheduler process, inside and outside the mesh. -/
structure LiveBackends where
  external : SchedulerId → BackendSet
  internal : SchedulerId → BackendSet

def Reconciler.live (r : Reconciler) : LiveBackends := ⟨r.external, r.internal⟩

/-- The backends of a set that have a port, in order. -/
def BackendSet.usable (s : BackendSet) : BackendSet :=
  ofList ((s.toList.filter (·.port ≠ 0)).mergeSort fun a b => (compare a b).isLE)

/-- The virtual address of a route, its own or the one of its host name, if it is internal. -/
def Route.address? (r : Route) : Option String :=
  if r.isInternal then some (r.vip.getD (Vip.ofHostname r.hostname).text) else none

namespace DesiredState

def empty : DesiredState := ⟨∅, ∅, ∅⟩

/-- The record of a mapping of a route for one scheduler process. -/
def recordOf (d : DesiredState) (live : LiveBackends) (m : RouteMapping) (r : Route)
    (id : SchedulerId) : RouteRecord where
  hostname := r.hostname
  path := r.pathPrefix
  processId := m.processId
  schedulerId := id
  backends := (if r.isInternal then live.internal id else live.external id).usable
  weight := d.mappings.share m
  internal := r.isInternal
  vip := r.address?

def recordsOf (d : DesiredState) (live : LiveBackends) (m : RouteMapping) : List RouteRecord :=
  match d.routes.get? m.routeId, d.associations.get? m.processId with
  | some r, some ids => ids.toList.map (d.recordOf live m r)
  | _, _ => []

/-- The records of every mapping, in order. -/
def collect (d : DesiredState) (live : LiveBackends) : List RouteRecord :=
  RouteRecord.sort (d.mappings.list.flatMap (d.recordsOf live))

end DesiredState

end MeshControl
