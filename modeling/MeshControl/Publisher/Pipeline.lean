import MeshControl.ControlPlane
import MeshControl.Publisher.Timer

/-!
# A publisher at work

A publisher reads a control plane, certificates and policy edges, and stores snapshots in the
cache of the control plane, unless its sink fails.

## Main definitions

* `Pipeline` — everything that a tick depends on.
* `Pipeline.offer` — what the sink does with a snapshot.
* `Pipeline.tick`, `Pipeline.tickTimes`.
-/

namespace MeshControl

structure Pipeline where
  ingress : Ingress
  /-- The node that snapshots are published for. -/
  node : NodeId
  plane : ControlPlane
  publisher : Publisher
  certificates : List Certificate
  /-- Whether certificates cannot be found. -/
  discoveryFails : Bool
  policies : List PolicyEdge
  /-- How the sink fails, if it does. -/
  sinkFailure : Option SinkFailure
  /-- How often a snapshot was offered to the sink. -/
  sinkCalls : Nat
  deriving DecidableEq, Inhabited

namespace Pipeline

def inputs (p : Pipeline) : MeshInputs where
  ingress := p.ingress
  records := p.plane.records
  certificates := if p.discoveryFails then none else some p.certificates
  policies := p.policies

def sinkAnswer (p : Pipeline) : SinkAnswer :=
  match p.sinkFailure with
  | none => .ok ()
  | some why => .error why

/-- The sink is offered a snapshot. Unless it fails, it stores the snapshot for the node. -/
def offer (s : Snapshot) : StateM Pipeline SinkAnswer :=
  modifyGet fun p =>
    let asked := { p with sinkCalls := p.sinkCalls + 1 }
    match p.sinkAnswer with
    | .ok () =>
      (.ok (), { asked with plane := { p.plane with snapshots := p.plane.snapshots.set p.node s } })
    | .error why => (.error why, asked)

def tick (p : Pipeline) : Pipeline × TickOutcome :=
  let ((publisher, outcome), p) := ((p.publisher.tickWith p.inputs offer).run p).run
  ({ p with publisher }, outcome)

def tickTimes (p : Pipeline) : (n : Nat) → Pipeline
  | 0 => p
  | n + 1 => p.tick.1.tickTimes n

end Pipeline

end MeshControl
