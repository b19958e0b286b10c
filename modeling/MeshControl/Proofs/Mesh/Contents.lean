import Mathlib
import MeshControl.Proofs.Mesh.Hosts

/-!
# What the bodies contain

The parts of each body are traced back to the records and the policy edges that they come from.

## Main statements

* `VirtualService.mem_rules` — rules come from the records of a path.
* `VirtualService.mem_destinations` — destinations come from the records of a path and a process.
* `DestinationRule.mem_subsets` — subsets come from the processes of records.
* `ServiceEntry.mem_workloads` — ports and endpoints come from the backends of records.
* `PolicyEdge.exists_mem_of_mem_egress` — hosts that may be reached come from internal records.
-/

namespace MeshControl

open Table (having)

theorem RouteRecord.hasBackends_of_mem {r : RouteRecord} {b : Backend}
    (hb : b ∈ r.backends.toList) : r.hasBackends := by
  simpa [hasBackends, BackendSet.isEmpty] using List.ne_nil_of_mem hb

/-! ## Virtual services -/

namespace VirtualService

/-- The destinations of all rules. -/
def destinations (s : VirtualService) : List Destination := s.rules.flatMap (·.destinations)

variable {ingress : Ingress} {host : MeshHost} {records : List RouteRecord} {d : Destination}

theorem mem_destinations_rule {path : PathKey} :
    d ∈ (rule host path records).destinations ↔ ∃ id, having (·.processId) id records ≠ [] ∧
      d = destination host id (having (·.processId) id records) := by
  simp only [rule, List.mem_map, Prod.exists, Table.mem_entries_group]
  constructor
  · rintro ⟨id, _, ⟨rfl, some⟩, rfl⟩
    exact ⟨id, some, rfl⟩
  · rintro ⟨id, some, rfl⟩
    exact ⟨id, _, ⟨rfl, some⟩, rfl⟩

theorem mem_rules {x : Rule} : x ∈ (ofRecords ingress host records).rules ↔
    ∃ path, having (·.pathKey) path records ≠ [] ∧
      x = rule host path (having (·.pathKey) path records) := by
  simp only [ofRecords, List.mem_map, Prod.exists, Table.mem_entries_group]
  constructor
  · rintro ⟨path, _, ⟨rfl, some⟩, rfl⟩
    exact ⟨path, some, rfl⟩
  · rintro ⟨path, some, rfl⟩
    exact ⟨path, _, ⟨rfl, some⟩, rfl⟩

/-- There is a destination for every path and every process that share records, and no other. -/
theorem mem_destinations :
    d ∈ (ofRecords ingress host records).destinations ↔ ∃ path id,
      having (·.processId) id (having (·.pathKey) path records) ≠ [] ∧
        d = destination host id (having (·.processId) id (having (·.pathKey) path records)) := by
  simp only [destinations, List.mem_flatMap, mem_rules]
  constructor
  · rintro ⟨_, ⟨path, -, rfl⟩, hd⟩
    obtain ⟨id, some, rfl⟩ := mem_destinations_rule.mp hd
    exact ⟨path, id, some, rfl⟩
  · rintro ⟨path, id, some, rfl⟩
    have paths : having (·.pathKey) path records ≠ [] := by
      intro none
      rw [none] at some
      exact some rfl
    exact ⟨_, ⟨path, paths, rfl⟩, mem_destinations_rule.mpr ⟨id, some, rfl⟩⟩

/-- A destination stands for a process of some record. -/
theorem exists_mem_of_mem_destinations (hd : d ∈ (ofRecords ingress host records).destinations) :
    d.target.host = host.hostname ∧ ∃ r ∈ records, r.processId = d.target.subset := by
  obtain ⟨path, id, some, rfl⟩ := mem_destinations.mp hd
  obtain ⟨r, onPath, process⟩ := Table.having_ne_nil_iff.mp some
  exact ⟨rfl, r, (Table.mem_having.mp onPath).1, process⟩

/-- Every process of a record has a destination. -/
theorem exists_destination {r : RouteRecord} (hr : r ∈ records) :
    ∃ d ∈ (ofRecords ingress host records).destinations,
      d.target.host = host.hostname ∧ d.target.subset = r.processId := by
  have shared : having (·.processId) r.processId (having (·.pathKey) r.pathKey records) ≠ [] :=
    Table.having_ne_nil_iff.mpr ⟨r, Table.mem_having.mpr ⟨hr, rfl⟩, rfl⟩
  exact ⟨_, mem_destinations.mpr ⟨r.pathKey, r.processId, shared, rfl⟩, rfl, rfl⟩

/-- The port of a destination is a container port of some record. -/
theorem exists_backend_of_port (hd : d ∈ (ofRecords ingress host records).destinations)
    {number : UInt32} (port : d.target.port = some number) :
    ∃ r ∈ records, ∃ b ∈ r.backends.toList, b.containerPort.toUInt32 = number := by
  obtain ⟨path, id, -, rfl⟩ := mem_destinations.mp hd
  obtain ⟨r, hr, found⟩ := List.exists_of_findSome?_eq_some port
  obtain ⟨b, first, rfl⟩ := Option.map_eq_some_iff.mp found
  have hr := (Table.mem_having.mp (Table.mem_having.mp hr).1).1
  exact ⟨r, hr, b, List.mem_of_mem_head? first, rfl⟩

end VirtualService

/-! ## Destination rules -/

theorem DestinationRule.mem_subsets {host : MeshHost} {records : List RouteRecord}
    {s : Subset} : s ∈ (ofRecords host records).subsets ↔
      ∃ r ∈ records, s = ⟨r.processId, .ofProcess r.processId⟩ := by
  simp only [ofRecords, List.mem_map, SortedSet.mem_toList, SortedSet.mem_ofList]
  constructor
  · rintro ⟨_, ⟨r, hr, rfl⟩, rfl⟩
    exact ⟨r, hr, rfl⟩
  · rintro ⟨r, hr, rfl⟩
    exact ⟨_, ⟨r, hr, rfl⟩, rfl⟩

/-! ## Service entries -/

namespace ServiceEntry

variable {host : MeshHost} {records : List RouteRecord}

theorem mem_workloads {w : Workload} :
    w ∈ RouteRecord.allWorkloads records ↔
      ∃ r ∈ records, w.backend ∈ r.backends.toList ∧ w.processId = r.processId := by
  simp only [RouteRecord.allWorkloads, SortedSet.mem_ofList, List.mem_flatMap,
    RouteRecord.workloads, List.mem_map]
  constructor
  · rintro ⟨r, hr, b, hb, rfl⟩
    exact ⟨r, hr, hb, rfl⟩
  · rintro ⟨r, hr, hb, same⟩
    exact ⟨r, hr, w.backend, hb, by rw [← same]⟩

/-- A backend of a record gets its container port declared. -/
theorem exists_port {r : RouteRecord} (hr : r ∈ records) {b : Backend}
    (hb : b ∈ r.backends.toList) :
    ∃ p ∈ (ofRecords host records).ports, p.number = b.containerPort.toUInt32 := by
  have work : ⟨b, r.processId⟩ ∈ RouteRecord.allWorkloads records :=
    mem_workloads.mpr ⟨r, hr, hb, rfl⟩
  have port : b.containerPort ∈ containerPorts (RouteRecord.allWorkloads records) := by
    rw [containerPorts, SortedSet.mem_toList, SortedSet.mem_ofList]
    exact List.mem_map.mpr ⟨_, work, rfl⟩
  exact ⟨_, List.mem_map_of_mem port, rfl⟩

/-- An endpoint carries the label of the process of some record. -/
theorem exists_mem_of_mem_endpoints {x : Endpoint} (hx : x ∈ (ofRecords host records).endpoints) :
    ∃ r ∈ records, x.labels = .ofProcess r.processId := by
  obtain ⟨w, hw, rfl⟩ := List.mem_map.mp hx
  obtain ⟨r, hr, -, same⟩ := mem_workloads.mp hw
  exact ⟨r, hr, congrArg Labels.ofProcess same⟩

end ServiceEntry

/-! ## Sidecars -/

namespace PolicyEdge

variable {records : List RouteRecord} {edges : List PolicyEdge}

theorem mem_reachable {e : PolicyEdge} {h : String} : h ∈ e.reachable records ↔
    ∃ r ∈ records, r.internal ∧ r.processId = e.destination ∧
      h = MeshHost.internalNamespace ++ r.hostname := by
  simp only [reachable, List.mem_map, List.mem_filter, Bool.and_eq_true, decide_eq_true_eq]
  constructor
  · rintro ⟨r, ⟨hr, inside, process⟩, rfl⟩
    exact ⟨r, hr, inside, process, rfl⟩
  · rintro ⟨r, hr, inside, process, rfl⟩
    exact ⟨r, ⟨hr, inside, process⟩, rfl⟩

theorem mem_sidecars {name : String} {s : Sidecar} :
    .ofBody name (.sidecar s) ∈ sidecars records edges ↔
      (sidecarTable records edges).get? name = some s := by
  rw [sidecars, List.mem_map, Table.get?_eq_some_iff]
  constructor
  · rintro ⟨⟨_, _⟩, listed, same⟩
    obtain ⟨rfl, body⟩ := Resource.ofBody_inj.mp same
    obtain rfl := Resource.Body.sidecar.inj body
    exact listed
  · exact fun listed => ⟨_, listed, rfl⟩

/-- A sidecar allows nothing, or is the one of a source with some of the edges. -/
theorem sidecar_cases {s : Sidecar} {name : String}
    (h : .ofBody name (.sidecar s) ∈ sidecars records edges) :
    s = .denying ∨ ∃ g, s = Sidecar.ofEdges records name g := by
  rw [mem_sidecars, sidecarTable, Table.get?_insert] at h
  split_ifs at h with default
  · exact .inl (Option.some.inj h).symm
  · obtain ⟨⟨source, g⟩, -, same⟩ := List.mem_map.mp (Table.mem_of_get?_ofList h)
    obtain ⟨rfl, rfl⟩ := Prod.mk.inj same
    exact .inr ⟨g, rfl⟩

/-- A host that a sidecar lets requests through to is the internal host of some record. -/
theorem exists_mem_of_mem_egress {s : Sidecar} {name : String}
    (h : .ofBody name (.sidecar s) ∈ sidecars records edges) {listener : List String}
    (hl : listener ∈ s.egress) {target : String} (ht : target ∈ listener) :
    ∃ r ∈ records, r.internal ∧ target = MeshHost.internalNamespace ++ r.hostname := by
  obtain rfl | ⟨g, rfl⟩ := sidecar_cases h
  · obtain rfl := List.mem_singleton.mp hl
    exact absurd ht List.not_mem_nil
  · obtain rfl := List.mem_singleton.mp hl
    rw [SortedSet.mem_toList, SortedSet.mem_ofList, List.mem_flatMap] at ht
    obtain ⟨e, -, ht⟩ := ht
    obtain ⟨r, hr, inside, -, rfl⟩ := mem_reachable.mp ht
    exact ⟨r, hr, inside, rfl⟩

end PolicyEdge

end MeshControl
