import MeshControl.Backend
import MeshControl.Instance
import MeshControl.PathOrder

/-!
# Records of routes with their backends

A record says that requests for a host name and a path are sent, with a weight, to the live
backends of one scheduler process. Records are the link between the desired state and the
configuration of the mesh.

## Main definitions

* `RouteRecord` — a record, with its written form.
* `RouteRecord.cmp`, `RouteRecord.sort` — records in the order in which they are listed.
-/

namespace MeshControl

structure RouteRecord where
  hostname : String
  path : Option String
  processId : ProcessId
  schedulerId : SchedulerId
  backends : BackendSet
  /-- The share in the requests of the route, in percent. -/
  weight : UInt32
  internal : Bool
  vip : Option String
  deriving DecidableEq, Inhabited

namespace RouteRecord

/-- Records are compared by host name, path, process and scheduler process. -/
def cmp (a b : RouteRecord) : Ordering :=
  (compare a.hostname b.hostname).then <| (comparePaths a.path b.path).then <|
    (compare a.processId b.processId).then (compare a.schedulerId b.schedulerId)

/-- The records in order. Those that compare equal keep their places. -/
def sort (records : List RouteRecord) : List RouteRecord :=
  records.mergeSort fun a b => (cmp a b).isLE

/-- The written form, where what is absent is null. -/
def toJson (r : RouteRecord) : Json :=
  .object
    [("hostname", .string r.hostname),
     ("path", r.path.elim .null .string),
     ("process_id", .string r.processId),
     ("scheduler_process_id", .string r.schedulerId),
     ("backends", r.backends.toJson),
     ("weight", .ofNat r.weight.toNat),
     ("internal", .bool r.internal),
     ("vip", r.vip.elim .null .string)]

end RouteRecord

end MeshControl
