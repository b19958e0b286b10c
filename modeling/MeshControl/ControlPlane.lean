import MeshControl.Collector
import MeshControl.Publisher.Basic

/-!
# The control plane

What callers have stated, what the scheduler has told, and what was published.

## Main definitions

* `ControlPlane` — the three together.
* `ControlPlane.records` — the records now.
-/

namespace MeshControl

structure ControlPlane where
  desired : DesiredState
  backends : Reconciler
  snapshots : Snapshot.Cache
  deriving DecidableEq, Inhabited

namespace ControlPlane

def init (sshPort : UInt16) : ControlPlane := ⟨.empty, .init sshPort, ∅⟩

def records (c : ControlPlane) : List RouteRecord := c.desired.collect c.backends.live

def update (c : ControlPlane) (u : Update) : ControlPlane :=
  { c with backends := c.backends.apply u }

end ControlPlane

end MeshControl
