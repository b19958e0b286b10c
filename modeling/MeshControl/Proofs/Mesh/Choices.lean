import Mathlib
import MeshControl.Proofs.Mesh.Footprint

/-!
# What the first record decides

Several records may be for one destination of a virtual service, or for one service entry, and need
not agree. The first of them in the list that says something then decides. Records that agree leave
nothing to decide.

## Main definitions

* `RouteRecord.sharing` — the records for one destination.
* `RouteRecord.firstWeight?`, `RouteRecord.firstLivePort?` — what they decide for it.
* `RouteRecord.firstVip?` — what the records of a host decide for its service entry.
* `RouteRecord.Uncontested` — no two records disagree on anything that the first decides.
-/

namespace MeshControl

open Table (having)

namespace RouteRecord

/-- The records of a host, a path and a process. -/
def sharing (host : MeshHost) (path : Option String) (id : ProcessId)
    (records : List RouteRecord) : List RouteRecord :=
  records.filter fun r => r.meshHost = host ∧ r.path = path ∧ r.processId = id

/-- The weight of the first record of a host, a path and a process. -/
def firstWeight? (host : MeshHost) (path : Option String) (id : ProcessId)
    (records : List RouteRecord) : Option UInt32 :=
  (sharing host path id records).head?.map (·.weight)

/-- The container port of the first backend, in the first record of a host, a path and a process
that has backends. -/
def firstLivePort? (host : MeshHost) (path : Option String) (id : ProcessId)
    (records : List RouteRecord) : Option UInt32 :=
  ((sharing host path id records).find? (·.hasBackends)).bind (·.targetPort?)

/-- The virtual address of the first record of an internal host that has a backend and a virtual
address. Other hosts have none. -/
def firstVip? (host : MeshHost) (records : List RouteRecord) : Option String :=
  if host.internal then
    (records.find? fun r => r.meshHost = host ∧ r.hasBackends ∧ r.vip.isSome).bind (·.vip)
  else none

/-- Records for one destination agree on its weight and its port, and live records of an internal
host on its virtual address. -/
structure Uncontested (records : List RouteRecord) : Prop where
  weight : ∀ r ∈ records, ∀ r' ∈ records, r.meshHost = r'.meshHost → r.path = r'.path →
    r.processId = r'.processId → r.weight = r'.weight
  /-- Records without backends have no port to disagree on. -/
  port : ∀ r ∈ records, ∀ r' ∈ records, r.meshHost = r'.meshHost → r.path = r'.path →
    r.processId = r'.processId → r.hasBackends → r'.hasBackends → r.targetPort? = r'.targetPort?
  vip : ∀ r ∈ records, ∀ r' ∈ records, r.meshHost = r'.meshHost → r.internal →
    r.hasBackends → r'.hasBackends → r.vip.isSome → r'.vip.isSome → r.vip = r'.vip

variable {records records' : List RouteRecord} {host : MeshHost} {path : Option String}
  {id : ProcessId}

theorem mem_sharing {r : RouteRecord} : r ∈ sharing host path id records ↔
    r ∈ records ∧ r.meshHost = host ∧ r.path = path ∧ r.processId = id := by
  simp [sharing]

/-! ## Groups -/

/-- The records for a destination are those of its process, of its path, of its host. -/
theorem having_ofHost : having (·.processId) id (having (·.pathKey) ⟨path⟩ (ofHost host records)) =
    sharing host path id records := by
  simp only [ofHost, having, sharing, List.filter_filter]
  congr 1
  funext r
  rw [Bool.eq_iff_iff]
  simp only [Bool.and_eq_true, beq_iff_eq, Std.LawfulEqCmp.compare_eq_iff_eq, decide_eq_true_eq,
    pathKey, PathKey.mk.injEq]
  constructor
  · rintro ⟨rfl, rfl, rfl⟩
    exact ⟨rfl, rfl, rfl⟩
  · rintro ⟨rfl, rfl, rfl⟩
    exact ⟨rfl, rfl, rfl⟩

/-- The first value that a function has on a list is the one at the first element that has one. -/
theorem findSome?_eq_bind_find? {α β : Type} (f : α → Option β) (l : List α) :
    l.findSome? f = (l.find? fun a => (f a).isSome).bind f := by
  induction l with
  | nil => rfl
  | cons a l ih => cases h : f a <;> simp [h, ih]

theorem isSome_targetPort? (r : RouteRecord) : r.targetPort?.isSome = r.hasBackends := by
  cases h : r.backends.toList <;> simp [targetPort?, hasBackends, BackendSet.isEmpty, h]

theorem findSome?_targetPort? : (sharing host path id records).findSome? (·.targetPort?) =
    firstLivePort? host path id records := by
  simp only [findSome?_eq_bind_find?, isSome_targetPort?, firstLivePort?]

theorem address?_live_eq_firstVip? : address? (live host records) = firstVip? host records := by
  have given : ∀ r ∈ live host records,
      (if r.internal then r.vip else none) = if host.internal then r.vip else none := by
    intro r hr
    rw [← (mem_ofHost.mp hr).2]
    rfl
  rw [address?, ← List.head?_filterMap, List.filterMap_congr given, List.head?_filterMap, firstVip?]
  by_cases inside : host.internal
  · simp only [inside, if_true]
    rw [findSome?_eq_bind_find?, live, ofHost, having, List.find?_filter, List.find?_filter]
    congr 2
    funext r
    rw [Bool.eq_iff_iff]
    simp only [decide_eq_true_eq, beq_iff_eq, Std.LawfulEqCmp.compare_eq_iff_eq]
    constructor
    · rintro ⟨live, same, vip⟩
      exact ⟨same.symm, live, vip⟩
    · rintro ⟨same, live, vip⟩
      exact ⟨live, same.symm, vip⟩
  · simp [inside]

end RouteRecord

end MeshControl
