import MeshControl.Association
import MeshControl.Backend

/-!
# Instances of scheduler processes

What the scheduler reports about one running copy of a process, and the backends it gives. Seen
from outside, an instance answers at the address of its host and the host's side of its first
application port. Seen from inside, it answers at its own address and the container's side.

## Main definitions

* `Instance` — a report, with its written form.
* `Instance.externalEndpoint`, `Instance.internalEndpoint` — where it answers, in any state.
* `Instance.externalBackend`, `Instance.internalBackend` — the same, while it serves requests.
-/

namespace MeshControl

/-- The container port that serves remote shells unless another is set. -/
def defaultSshPort : UInt16 := 2222

inductive InstanceState where
  | unclaimed
  | claimed
  | running
  | crashed
  deriving DecidableEq, Inhabited

namespace InstanceState

def word : InstanceState → String
  | unclaimed => "unclaimed"
  | claimed => "claimed"
  | running => "running"
  | crashed => "crashed"

def ofJson : Json.Decoder InstanceState :=
  Json.asWordOf ([unclaimed, claimed, running, crashed].map fun s => (s.word, s))

/-- In a notice the member that a word is the name of may also be empty. -/
def ofNotice : Json.Decoder InstanceState
  | .object [(s, .object [])] => ofJson (.string s)
  | v => ofJson v

end InstanceState

/-- A container port and the host port it is reached by. -/
structure PortMapping where
  containerPort : UInt16
  hostPort : UInt16
  deriving DecidableEq, Inhabited

namespace PortMapping

def toJson (p : PortMapping) : Json :=
  .object [("container_port", .ofNat p.containerPort.toNat), ("host_port", .ofNat p.hostPort.toNat)]

def ofJson : Json.Decoder PortMapping :=
  Json.record ["container_port", "host_port"] fun r =>
    PortMapping.mk <$> r.required "container_port" Json.asPort <*>
      r.required "host_port" Json.asPort

end PortMapping

structure Instance where
  processId : SchedulerId
  index : UInt32
  state : InstanceState
  /-- Set on the copy that is being moved away while its replacement starts. -/
  evacuating : Bool
  /-- The address of the host. -/
  address : String
  /-- The address of the instance itself. -/
  instanceAddress : Option String
  ports : List PortMapping
  deriving DecidableEq, Inhabited

namespace Instance

def isRoutable (i : Instance) : Bool := i.state = .running && !i.evacuating

/-- The first port that is not the one for remote shells. -/
def appPort (i : Instance) (ssh : UInt16) : Option PortMapping :=
  i.ports.find? (·.containerPort ≠ ssh)

def externalEndpoint (i : Instance) (ssh : UInt16) : Option Backend :=
  (i.appPort ssh).bind fun p =>
    if p.hostPort = 0 then none else some ⟨i.address, p.hostPort, p.containerPort⟩

def internalEndpoint (i : Instance) (ssh : UInt16) : Option Backend :=
  i.instanceAddress.bind fun address => (i.appPort ssh).bind fun p =>
    if p.containerPort = 0 then none else some ⟨address, p.containerPort, p.containerPort⟩

def externalBackend (i : Instance) (ssh : UInt16) : Option Backend :=
  if i.isRoutable then i.externalEndpoint ssh else none

def internalBackend (i : Instance) (ssh : UInt16) : Option Backend :=
  if i.isRoutable then i.internalEndpoint ssh else none

/-! ## Written form -/

def toJson (i : Instance) : Json :=
  .object (Json.present
    [("process_id", some (.string i.processId)),
     ("index", some (.ofNat i.index.toNat)),
     ("state", some (.string i.state.word)),
     ("evacuating", some (.bool i.evacuating)),
     ("address", some (.string i.address)),
     ("instance_address", i.instanceAddress.map .string),
     ("ports", some (.array (i.ports.map PortMapping.toJson)))])

def decoder (state : Json.Decoder InstanceState) : Json.Decoder Instance :=
  Json.record
    ["process_id", "index", "state", "evacuating", "address", "instance_address", "ports"] fun r =>
    Instance.mk <$> r.required "process_id" Json.asString <*> r.withDefault "index" 0 Json.asWord
      <*> r.required "state" state <*> r.withDefault "evacuating" false Json.asBool
      <*> r.required "address" Json.asString <*> r.optional "instance_address" Json.asString
      <*> r.withDefault "ports" [] (Json.asList PortMapping.ofJson)

def ofJson : Json.Decoder Instance := decoder InstanceState.ofJson

def ofNotice : Json.Decoder Instance := decoder InstanceState.ofNotice

end Instance

end MeshControl
