import MeshControl.RouteRecord
import MeshControl.Table.Group

/-!
# Hosts of the mesh

A host name may be known inside the mesh, outside, or both, and is then two hosts. Each host is
configured by resources of its own, whose names tell the two apart.

## Main definitions

* `MeshHost` — a host name on one side, in the order of the resource names.
* `MeshHost.resourceName` — the name of a host's resource.
* `RouteRecord.byHost` — records by host.
-/

namespace MeshControl

open Std

structure MeshHost where
  hostname : String
  internal : Bool
  deriving DecidableEq, Inhabited

namespace MeshHost

/-- Internal hosts come first. -/
def side (h : MeshHost) : Nat := if h.internal then 0 else 1

/-- Hosts are compared by side, then by host name. -/
def cmp : MeshHost → MeshHost → Ordering := compareLex (compareOn side) (compareOn hostname)

instance : Ord MeshHost := ⟨cmp⟩

instance : TransOrd MeshHost :=
  inferInstanceAs (TransCmp (compareLex (compareOn side) (compareOn hostname)))

instance : LawfulEqOrd MeshHost where
  compare_self {_} := @ReflCmp.compare_self _
    (compareLex (compareOn side) (compareOn hostname)) _ _
  eq_of_compare {a b} h := by
    have h' : (compare a.side b.side).then (compare a.hostname b.hostname) = .eq := h
    rw [Ordering.then_eq_eq] at h'
    have hs : a.side = b.side := LawfulEqCmp.compare_eq_iff_eq.1 h'.1
    have hn : a.hostname = b.hostname := LawfulEqCmp.compare_eq_iff_eq.1 h'.2
    obtain ⟨n, i⟩ := a
    obtain ⟨m, j⟩ := b
    cases i <;> cases j <;> simp_all [side]

def internalNamespace : String := "internal/"

def resourceName (what : String) (h : MeshHost) : String :=
  (if h.internal then internalNamespace else "") ++ "meshsync-" ++ what ++ "-" ++ h.hostname

end MeshHost

namespace RouteRecord

def meshHost (r : RouteRecord) : MeshHost := ⟨r.hostname, r.internal⟩

/-- Records by host, in the order of the list. -/
def byHost (records : List RouteRecord) : Table MeshHost (List RouteRecord) :=
  Table.group meshHost records

end RouteRecord

end MeshControl
