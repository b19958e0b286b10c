import MeshControl.Snapshot.Basic

/-!
# The snapshot cache

The last snapshot of every node.

## Main definitions

* `Snapshot.Cache` — with `set`, `get?`, `clear` and `nodes`.
-/

namespace MeshControl

abbrev NodeId := String

namespace Snapshot

structure Cache where
  byNode : Table NodeId Snapshot
  deriving DecidableEq, Inhabited

namespace Cache

def empty : Cache := ⟨∅⟩

instance : EmptyCollection Cache := ⟨empty⟩

/-- Store the snapshot of a node in place of the one before. -/
def set (c : Cache) (node : NodeId) (s : Snapshot) : Cache := ⟨c.byNode.insert node s⟩

def get? (c : Cache) (node : NodeId) : Option Snapshot := c.byNode.get? node

def clear (c : Cache) (node : NodeId) : Cache := ⟨c.byNode.erase node⟩

def nodes (c : Cache) : List NodeId := c.byNode.keys

@[simp] theorem get?_set_self (c : Cache) (node : NodeId) (s : Snapshot) :
    (c.set node s).get? node = some s := by
  simp [set, get?]

end Cache

end Snapshot

end MeshControl
