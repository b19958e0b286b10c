import MeshControl.Mesh.Host
import MeshControl.Mesh.Ingress

/-!
# Virtual services of hosts

The records of a host give a virtual service with a rule for every path among them, in which
every process gets a share of the requests.

## Main definitions

* `VirtualService.ofRecords` — the virtual service of one host.
* `RouteRecord.virtualServices` — the resources of all hosts.
-/

namespace MeshControl

namespace RouteRecord

/-- The port that requests are sent to, which is that of the first backend. -/
def targetPort? (r : RouteRecord) : Option UInt32 :=
  r.backends.toList.head?.map fun b => b.containerPort.toUInt32

def pathKey (r : RouteRecord) : PathKey := ⟨r.path⟩

end RouteRecord

namespace VirtualService

/-- How requests for internal hosts are tried again. -/
def internalRetries : Retries := ⟨3, "5xx"⟩

/-- How long requests for internal hosts may take. -/
def internalTimeout : String := "15s"

/-- The share of a process, as its first record says, at the first port that a record gives. -/
def destination (host : MeshHost) (id : ProcessId) (records : List RouteRecord) : Destination where
  target := ⟨host.hostname, id, records.findSome? (·.targetPort?)⟩
  weight := records.head?.elim 0 (·.weight)

/-- The rule for a path, with the processes in order. -/
def rule (host : MeshHost) (path : PathKey) (records : List RouteRecord) : Rule where
  conditions := path.path.toList.map .beginsWith
  destinations := (Table.group (·.processId) records).entries.map fun e =>
    destination host e.1 e.2
  retries := if host.internal then some internalRetries else none
  timeout := if host.internal then some internalTimeout else none

/-- The virtual service of a host. Internal ones are not served by the gateway. -/
def ofRecords (ingress : Ingress) (host : MeshHost) (records : List RouteRecord) :
    VirtualService where
  hosts := [host.hostname]
  gateways := if host.internal then [] else [ingress.gatewayName]
  rules := (Table.group (·.pathKey) records).entries.map fun e => rule host e.1 e.2

end VirtualService

/-- The virtual service of every host that has records. -/
def RouteRecord.virtualServices (ingress : Ingress) (records : List RouteRecord) :
    List Resource :=
  (byHost records).entries.map fun e =>
    .ofBody (e.1.resourceName "service-for")
      (.virtualService (VirtualService.ofRecords ingress e.1 e.2))

end MeshControl
