import MeshControl.Mesh.Host
import MeshControl.Resource.Body

/-!
# Service entries of hosts

The live backends of a host's records are the endpoints of its service entry. A host without
live backends has none.

## Main definitions

* `Workload` — a backend of a process.
* `ServiceEntry.ofRecords` — the service entry of one host.
* `RouteRecord.serviceEntries` — the resources of all hosts.
-/

namespace MeshControl

open Std

structure Workload where
  backend : Backend
  processId : ProcessId
  deriving DecidableEq, Inhabited

namespace Workload

/-- Workloads are compared by backend, then by process. -/
def cmp : Workload → Workload → Ordering := compareLex (compareOn backend) (compareOn processId)

instance : Ord Workload := ⟨cmp⟩

instance : TransOrd Workload :=
  inferInstanceAs (TransCmp (compareLex (compareOn backend) (compareOn processId)))

instance : LawfulEqOrd Workload where
  compare_self {_} := @ReflCmp.compare_self _
    (compareLex (compareOn backend) (compareOn processId)) _ _
  eq_of_compare {a b} h := by
    have h' : (compare a.backend b.backend).then (compare a.processId b.processId) = .eq := h
    rw [Ordering.then_eq_eq] at h'
    have hb : a.backend = b.backend := LawfulEqCmp.compare_eq_iff_eq.1 h'.1
    have hp : a.processId = b.processId := LawfulEqCmp.compare_eq_iff_eq.1 h'.2
    cases a
    cases b
    simp_all

end Workload

namespace RouteRecord

/-- The backends of a record with its process. -/
def workloads (r : RouteRecord) : List Workload :=
  r.backends.toList.map fun b => ⟨b, r.processId⟩

def hasBackends (r : RouteRecord) : Bool := !r.backends.isEmpty

def allWorkloads (records : List RouteRecord) : SortedSet Workload :=
  .ofList (records.flatMap workloads)

/-- The first virtual address among internal records. -/
def address? (records : List RouteRecord) : Option String :=
  records.findSome? fun r => if r.internal then r.vip else none

end RouteRecord

namespace ServiceEntry

/-- The name of a container port. It is named by its number unless it is the only one. -/
def portName (ports : List UInt16) (port : UInt16) : String :=
  if ports.length = 1 then "http" else s!"http-{port.toNat}"

def servicePort (ports : List UInt16) (port : UInt16) : Port :=
  .http port.toUInt32 (portName ports port)

def endpoint (ports : List UInt16) (w : Workload) : Endpoint where
  address := w.backend.address
  ports := (∅ : Table String UInt32).insert (portName ports w.backend.containerPort)
    w.backend.port.toUInt32
  labels := .ofProcess w.processId

def containerPorts (workloads : SortedSet Workload) : List UInt16 :=
  (SortedSet.ofList (workloads.toList.map (·.backend.containerPort))).toList

/-- The service entry of a host, with the workloads in order. -/
def ofRecords (host : MeshHost) (records : List RouteRecord) : ServiceEntry :=
  let workloads := RouteRecord.allWorkloads records
  let ports := containerPorts workloads
  { hosts := [host.hostname]
    addresses := (RouteRecord.address? records).toList
    ports := ports.map (servicePort ports)
    location := .meshInternal
    resolution := .static
    endpoints := workloads.toList.map (endpoint ports) }

end ServiceEntry

/-- The service entry of every host that has live backends. -/
def RouteRecord.serviceEntries (records : List RouteRecord) : List Resource :=
  (byHost (records.filter hasBackends)).entries.map fun e =>
    .ofBody (e.1.resourceName "service-entry-for")
      (.serviceEntry (ServiceEntry.ofRecords e.1 e.2))

end MeshControl
