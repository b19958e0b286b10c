import MeshControl.Mesh.Configuration
import MeshControl.Snapshot.Cache

/-!
# The publisher

At every tick the publisher makes the configuration of the mesh anew. Kinds that changed get the
next version, and if there is one, a snapshot of all kinds is offered to a sink. The publisher
remembers what the sink has taken.

## Main definitions

* `Release` — the resources of a kind with the number of their version.
* `Publisher.next` — the releases after a change.
* `Publisher.offer?` — the snapshot to be offered, if anything changed.
* `Publisher.tickWith`, `Publisher.tick` — one cycle, with a sink and with its answer.
-/

namespace MeshControl

structure Release where
  number : Nat
  resources : List Resource
  deriving DecidableEq, Inhabited

/-- The releases of the kinds. -/
abbrev Releases := Table ResourceKind Release

/-- Why a sink does not take a snapshot. -/
inductive SinkFailure where
  | unavailable (detail : String)
  | rejected (detail : String)
  deriving DecidableEq, Inhabited

def SinkFailure.message : SinkFailure → String
  | unavailable detail => s!"distribution sink unavailable: {detail}"
  | rejected detail => s!"snapshot rejected by distribution sink: {detail}"

abbrev SinkAnswer := Except SinkFailure Unit

/-- What came of a tick. -/
inductive TickOutcome where
  /-- Nothing changed, and the sink was not asked. -/
  | unchanged
  | published (s : Snapshot)
  | failed (why : SinkFailure)
  deriving Inhabited

structure Publisher where
  /-- What the sink took last. -/
  accepted : Releases
  deriving DecidableEq, Inhabited

namespace Publisher

def init : Publisher := ⟨∅⟩

/-- The releases with a kind's resources, at the next version if they changed. -/
def release (before after : Releases) (kind : ResourceKind) (resources : List Resource) :
    Releases :=
  match before.get? kind with
  | none => after.insert kind ⟨1, resources⟩
  | some r =>
    if r.resources = resources then after else after.insert kind ⟨r.number + 1, resources⟩

def next (p : Publisher) (inputs : MeshInputs) : Releases :=
  inputs.configuration.foldl (fun t k => release p.accepted t k.1 k.2) p.accepted

def snapshot (releases : Releases) : Snapshot :=
  ⟨releases.map fun r => ⟨toString r.number, r.resources⟩⟩

/-- The snapshot that is offered to the sink, if anything changed. -/
def offer? (p : Publisher) (inputs : MeshInputs) : Option Snapshot :=
  if p.next inputs = p.accepted then none else some (snapshot (p.next inputs))

/-- One cycle, in which a sink is asked. Only what the sink takes is remembered. -/
def tickWith {m : Type → Type} [Monad m] (p : Publisher) (inputs : MeshInputs)
    (sink : Snapshot → m SinkAnswer) : m (Publisher × TickOutcome) :=
  match p.offer? inputs with
  | none => return (p, .unchanged)
  | some s => do
    match ← sink s with
    | .ok () => return (⟨p.next inputs⟩, .published s)
    | .error why => return (p, .failed why)

def tick (p : Publisher) (inputs : MeshInputs) (answer : SinkAnswer) : Publisher × TickOutcome :=
  Id.run (p.tickWith inputs fun _ => return answer)

def version? (p : Publisher) (kind : ResourceKind) : Option String :=
  (p.accepted.get? kind).map fun r => toString r.number

end Publisher

end MeshControl
