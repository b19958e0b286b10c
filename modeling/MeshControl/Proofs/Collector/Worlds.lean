import Mathlib
import MeshControl.Proofs.Collector.Join
import MeshControl.Proofs.Mesh.Footprint

/-!
# Records in two worlds

The order of the records looks at nothing that comes from the backends or the weights. When one
part of a world changes, the records with that part hidden are the same list as before, and
whatever does not read the hidden part reads the same.

## Main definitions

* `World` — what the configuration is made from, before the records are collected.
* `RouteRecord.withoutBackends`, `RouteRecord.onSide`, `RouteRecord.withPort`,
  `RouteRecord.withoutWeight` — records with a part hidden.
* `DesiredState.map_collect_congr` — hiding what differs.
* `World.Reweighted`, `World.Churned` — worlds that differ in weights, or in backends.
-/

namespace MeshControl

/-- What the configuration is made from, before the records are collected. -/
structure World where
  desired : DesiredState
  live : LiveBackends
  /-- The certificates, if they can be found. -/
  certificates : Option (List Certificate)
  policies : List PolicyEdge

def World.records (w : World) : List RouteRecord := w.desired.collect w.live

def World.inputs (w : World) (ingress : Ingress) : MeshInputs :=
  ⟨ingress, w.records, w.certificates, w.policies⟩

namespace RouteRecord

def withoutBackends (r : RouteRecord) : RouteRecord := { r with backends := ∅ }

/-- The record, whose backends are shown on one side of the mesh only. -/
def onSide (side : Bool) (r : RouteRecord) : RouteRecord :=
  if r.internal = side then r else r.withoutBackends

/-- The record with nothing left of its backends but the first port. -/
def withPort (r : RouteRecord) : RouteRecord :=
  { r with backends := ⟨r.firstPort?.toList.map fun port => ⟨"", 0, port⟩⟩ }

def withoutWeight (r : RouteRecord) : RouteRecord := { r with weight := 0 }

theorem tied_onSide (side : Bool) (r : RouteRecord) : (r.onSide side).Tied r := by
  unfold onSide
  split_ifs <;> exact ⟨rfl, rfl, rfl, rfl⟩

@[simp] theorem internal_onSide (side : Bool) (r : RouteRecord) :
    (r.onSide side).internal = r.internal := by
  unfold onSide
  split_ifs <;> rfl

@[simp] theorem routing_withPort (r : RouteRecord) : r.withPort.routing = r.routing := by
  cases h : r.backends.toList.head? <;> simp [withPort, routing, firstPort?, meshHost, h]

theorem filter_map_onSide (side : Bool) (records : List RouteRecord) :
    (records.map (onSide side)).filter (·.internal = side) =
      records.filter (·.internal = side) := by
  have same : ∀ r ∈ records.filter (·.internal = side), onSide side r = r := by
    intro r hr
    exact if_pos (by simpa using (List.mem_filter.mp hr).2)
  rw [List.filter_map]
  simp only [Function.comp_def, internal_onSide]
  rw [List.map_congr_left same, List.map_id']

end RouteRecord

/-- The backend sets of one side of the mesh. -/
def LiveBackends.ofSide (live : LiveBackends) (side : Bool) : SchedulerId → BackendSet :=
  if side then live.internal else live.external

namespace DesiredState

variable {d : DesiredState} {live live' : LiveBackends} {f : RouteRecord → RouteRecord}

theorem backends_record (j : Join) :
    (d.record live j).backends = (live.ofSide j.route.isInternal j.schedulerId).usable := by
  cases h : j.route.isInternal <;> simp [record, recordOf, LiveBackends.ofSide, h]

theorem mem_collect {r : RouteRecord} :
    r ∈ d.collect live ↔ ∃ j, d.Holds j ∧ r = d.record live j := by
  rw [collect_eq_map, List.mem_map]
  simp only [(d.perm_ranked live).mem_iff, mem_joins, eq_comm]

/-- A part of the records can be hidden before they are sorted. -/
theorem map_collect (keeps : ∀ r, (f r).Tied r) : (d.collect live).map f =
    RouteRecord.sort (d.joins.map fun j => f (d.record live j)) := by
  rw [collect, flatMap_recordsOf, RouteRecord.map_sort keeps, List.map_map]
  rfl

/-- Backends that do not show in the records of the joins do not show in the list. -/
theorem map_collect_congr (keeps : ∀ r, (f r).Tied r)
    (hidden : ∀ j, d.Holds j → f (d.record live j) = f (d.record live' j)) :
    (d.collect live).map f = (d.collect live').map f := by
  have joins : (d.joins.map fun j => f (d.record live j)) =
      d.joins.map fun j => f (d.record live' j) :=
    List.map_congr_left fun j hj => hidden j (mem_joins.mp hj)
  rw [map_collect keeps, map_collect keeps, joins]

theorem map_withoutBackends_collect :
    (d.collect live).map (·.withoutBackends) = (d.collect live').map (·.withoutBackends) :=
  map_collect_congr (fun _ => ⟨rfl, rfl, rfl, rfl⟩) fun _ _ => rfl

/-- The records of one side depend on the backends of that side. -/
theorem filter_collect_congr {side : Bool} (same : live.ofSide side = live'.ofSide side) :
    (d.collect live).filter (·.internal = side) =
      (d.collect live').filter (·.internal = side) := by
  have hidden : ∀ j, (d.record live j).onSide side = (d.record live' j).onSide side := by
    intro j
    by_cases inside : j.route.isInternal = side
    · have backends : (d.record live j).backends = (d.record live' j).backends := by
        rw [backends_record, backends_record, inside, same]
      have whole : d.record live j = d.record live' j :=
        congrArg (fun b => { d.record live' j with backends := b }) backends
      rw [whole]
    · exact (if_neg inside).trans (if_neg inside).symm
  rw [← RouteRecord.filter_map_onSide, map_collect_congr (RouteRecord.tied_onSide side)
    (fun j _ => hidden j), RouteRecord.filter_map_onSide]

theorem addressed_collect : RouteRecord.Addressed (d.collect live) := by
  intro r hr inside
  obtain ⟨j, -, rfl⟩ := mem_collect.mp hr
  have address : (d.record live j).vip = j.route.address? := rfl
  have internal : j.route.isInternal := inside
  simp [address, Route.address?, internal]

end DesiredState

/-! ## Weights -/

def RouteMapping.withoutWeight (m : RouteMapping) : RouteMapping := { m with weight := 0 }

def Join.withoutWeight (j : Join) : Join := { j with mapping := j.mapping.withoutWeight }

namespace DesiredState

variable {d d' : DesiredState} {live : LiveBackends}

theorem joins_map_withoutWeight : d.joins.map (·.withoutWeight) =
    (d.mappings.byKey.map (·.withoutWeight)).entries.flatMap d.joinsOf := by
  rw [joins, List.map_flatMap, Table.map, List.flatMap_map]
  congr 1
  funext e
  simp only [joinsOf, RouteMapping.withoutWeight]
  split
  · simp [Join.withoutWeight, RouteMapping.withoutWeight]
  · rfl

/-- The joins are the same but for weights if the directories are. -/
theorem joins_map_withoutWeight_congr (routes : d.routes = d'.routes)
    (associations : d.associations = d'.associations)
    (mappings : ∀ k, (d.mappings.get? k).map (·.key) = (d'.mappings.get? k).map (·.key)) :
    d.joins.map (·.withoutWeight) = d'.joins.map (·.withoutWeight) := by
  have tables : d.mappings.byKey.map (·.withoutWeight) =
      d'.mappings.byKey.map (·.withoutWeight) := by
    refine Table.eq_of_get? fun k => ?_
    have keyed : ∀ t : Option RouteMapping, t.map (·.withoutWeight) =
        (t.map (·.key)).map fun k => ⟨k.routeId, k.processId, 0⟩ := by
      intro t
      cases t <;> rfl
    rw [Table.get?_map, Table.get?_map, keyed, keyed]
    exact congrArg _ (mappings k)
  have joinsOf : d.joinsOf = d'.joinsOf := by
    funext e
    rw [DesiredState.joinsOf, DesiredState.joinsOf, routes, associations]
  rw [joins_map_withoutWeight, joins_map_withoutWeight, tables, joinsOf]

theorem map_withoutWeight_collect
    (joins : d.joins.map (·.withoutWeight) = d'.joins.map (·.withoutWeight)) :
    (d.collect live).map (·.withoutWeight) = (d'.collect live).map (·.withoutWeight) := by
  have keeps : ∀ r : RouteRecord, r.withoutWeight.Tied r := fun _ => ⟨rfl, rfl, rfl, rfl⟩
  -- A join decides everything of its record but the share, which is hidden.
  have hidden : ∀ d' : DesiredState, (d'.joins.map fun j => (d'.record live j).withoutWeight) =
      (d'.joins.map (·.withoutWeight)).map fun j => (d.record live j).withoutWeight := by
    intro d'
    rw [List.map_map]
    rfl
  rw [map_collect keeps, map_collect keeps, hidden d, hidden d', joins]

end DesiredState

/-! ## Two worlds -/

namespace World

variable {v w : World}

/-- Nothing differs but the weights of mappings and their sums. -/
structure Reweighted (v w : World) : Prop where
  routes : v.desired.routes = w.desired.routes
  associations : v.desired.associations = w.desired.associations
  mappings : ∀ k, (v.desired.mappings.get? k).map (·.key) = (w.desired.mappings.get? k).map (·.key)
  live : v.live = w.live
  certificates : v.certificates = w.certificates
  policies : v.policies = w.policies

/-- Storing a mapping again gives it another weight. -/
theorem reweighted_map {m : RouteMapping}
    (found : (w.desired.mappings.get? m.key).map (·.key) = some m.key) :
    w.Reweighted { w with desired.mappings := w.desired.mappings.map m } where
  routes := rfl
  associations := rfl
  live := rfl
  certificates := rfl
  policies := rfl
  mappings k := by
    simp only [RouteMapping.Directory.get?_map]
    split_ifs with same
    · rw [same, found, Option.map_some]
    · rfl

/-- Nothing differs but the backends, and no record has another first port. -/
structure Churned (v w : World) : Prop where
  desired : v.desired = w.desired
  port : ∀ j, v.desired.Holds j →
    (v.desired.record v.live j).firstPort? = (v.desired.record w.live j).firstPort?
  certificates : v.certificates = w.certificates
  policies : v.policies = w.policies

/-- Worlds that are the same to a kind give the same resources of that kind. -/
theorem resources?_congr {ingress : Ingress} {kind : ResourceKind}
    (agree : (v.inputs ingress).Agree (w.inputs ingress) kind) :
    (v.inputs ingress).resources? kind = (w.inputs ingress).resources? kind :=
  MeshInputs.resources?_congr (i := v.inputs ingress) (j := w.inputs ingress) rfl
    DesiredState.addressed_collect DesiredState.addressed_collect agree

/-- Worlds whose records are the same but for what a kind does not see give the same resources. -/
theorem resources?_eq_of_map (ingress : Ingress) (certificates : v.certificates = w.certificates)
    (policies : v.policies = w.policies) {f : RouteRecord → RouteRecord}
    (same : v.records.map f = w.records.map f) {kind : ResourceKind}
    (unseen : RouteRecord.Unseen f kind) :
    (v.inputs ingress).resources? kind = (w.inputs ingress).resources? kind :=
  MeshInputs.resources?_eq_of_map (i := v.inputs ingress) (j := w.inputs ingress) rfl certificates
    policies DesiredState.addressed_collect DesiredState.addressed_collect same unseen

theorem Reweighted.resources?_eq (h : v.Reweighted w) (ingress : Ingress) {kind : ResourceKind}
    (other : kind ≠ .virtualService) :
    (v.inputs ingress).resources? kind = (w.inputs ingress).resources? kind := by
  have records : v.records.map (·.withoutWeight) = w.records.map (·.withoutWeight) := by
    rw [World.records, World.records, ← h.live]
    exact DesiredState.map_withoutWeight_collect
      (DesiredState.joins_map_withoutWeight_congr h.routes h.associations h.mappings)
  refine resources?_eq_of_map ingress h.certificates h.policies records ?_
  cases kind with
  | virtualService => exact absurd rfl other
  | gateway => trivial
  | destinationRule | sidecar => exact fun _ => rfl
  | serviceEntry => exact fun _ => ⟨rfl, rfl, rfl, rfl⟩

theorem Churned.resources?_eq (h : v.Churned w) (ingress : Ingress) {kind : ResourceKind}
    (other : kind ≠ .serviceEntry) :
    (v.inputs ingress).resources? kind = (w.inputs ingress).resources? kind := by
  have records : v.records.map (·.withPort) = w.records.map (·.withPort) := by
    rw [World.records, World.records, ← h.desired]
    refine DesiredState.map_collect_congr (fun _ => ⟨rfl, rfl, rfl, rfl⟩) fun j hj => ?_
    simp only [RouteRecord.withPort, h.port j hj]
    rfl
  refine resources?_eq_of_map ingress h.certificates h.policies records ?_
  cases kind with
  | serviceEntry => exact absurd rfl other
  | gateway => trivial
  | virtualService => exact RouteRecord.routing_withPort
  | destinationRule | sidecar => exact fun _ => rfl

end World

end MeshControl
