import MeshControl.Resource.Basic
import MeshControl.Table

/-!
# Snapshots

A snapshot holds resources of some kinds, each kind at a version, and is handed out as one unit.

## Main definitions

* `KindResources` — the resources of a kind at a version.
* `Snapshot` — with `Snapshot.ofList`, `Snapshot.versions` and `Snapshot.size`.
-/

namespace MeshControl

structure KindResources where
  version : String
  resources : List Resource
  deriving DecidableEq, Inhabited

namespace KindResources

def find? (k : KindResources) (name : String) : Option Resource :=
  k.resources.find? (·.name = name)

def toJson (k : KindResources) : Json :=
  .object [("version", .string k.version), ("resources", .array (k.resources.map Resource.toJson))]

end KindResources

structure Snapshot where
  kinds : Table ResourceKind KindResources
  deriving DecidableEq, Inhabited

namespace Snapshot

/-- The snapshot of a list of kinds, of which the last entry per kind counts. -/
def ofList (kinds : List (ResourceKind × KindResources)) : Snapshot := ⟨.ofList kinds⟩

def get? (s : Snapshot) (kind : ResourceKind) : Option KindResources := s.kinds.get? kind

/-- The versions of the kinds that are there. -/
def versions (s : Snapshot) : List (ResourceKind × String) :=
  s.kinds.entries.map fun e => (e.1, e.2.version)

def size (s : Snapshot) : Nat :=
  s.kinds.values.foldl (fun n k => n + k.resources.length) 0

/-- An object with a member for every kind. -/
def perKind (members : List (ResourceKind × Json)) : Json :=
  .object (members.map fun m => (m.1.name, m.2))

def versionsJson (s : Snapshot) : Json := perKind (s.versions.map fun v => (v.1, .string v.2))

def kindsJson (s : Snapshot) : Json := perKind (s.kinds.entries.map fun e => (e.1, e.2.toJson))

end Snapshot

end MeshControl
