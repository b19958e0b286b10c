import Mathlib
import MeshControl.Mesh.Configuration
import MeshControl.Proofs.Resource.Written
import MeshControl.Proofs.Table

/-!
# Resources by host

Virtual services, destination rules and service entries are made alike: every host that has
records gets one resource, made from its records alone and named after the host. So what such a
list contains is known host by host, and the two sides of the mesh do not meet in it.

## Main definitions

* `RouteRecord.ofHost` — the records of a host.
* `RouteRecord.perHost` — a list with one resource for every host.
* `RouteRecord.ofBody_mem_perHost`, `RouteRecord.pairwise_name_perHost` — what such a list contains,
  and in which order.
* `RouteRecord.filter_perHost`, `RouteRecord.perHost_congr` — its part for one side of the mesh,
  and when two of them are equal.
-/

namespace MeshControl

open Std

/-- Whether the name of a resource is that of an internal host's. -/
def Resource.isInternal (x : Resource) : Bool := Text.hasPrefix MeshHost.internalNamespace x.name

namespace MeshHost

/-! ## Names -/

theorem hasPrefix_resourceName (what : String) (h : MeshHost) :
    Text.hasPrefix internalNamespace (h.resourceName what) = h.internal := by
  obtain ⟨hostname, _ | _⟩ := h
  · simp [resourceName, Text.hasPrefix, internalNamespace, List.isPrefixOf]
  · simp [resourceName, Text.hasPrefix, internalNamespace]

theorem resourceName_injective (what : String) : Function.Injective (resourceName what) := by
  intro a b h
  have side : a.internal = b.internal := by
    rw [← hasPrefix_resourceName what a, h, hasPrefix_resourceName]
  obtain ⟨hostname, internal⟩ := a
  obtain ⟨hostname', _⟩ := b
  subst side
  simpa [resourceName, ← String.toList_inj] using h

theorem compare_eq_lt_iff {a b : MeshHost} : compare a b = .lt ↔
    a.side < b.side ∨ a.side = b.side ∧ a.hostname < b.hostname := by
  have unfolded : compare a b = (compare a.side b.side).then (compare a.hostname b.hostname) := rfl
  rw [unfolded, Ordering.then_eq_lt, compare_lt_iff_lt, LawfulEqCmp.compare_eq_iff_eq,
    compare_lt_iff_lt]

/-- The names of resources are in the order of their hosts. -/
theorem resourceName_lt (what : String) {a b : MeshHost} (h : compare a b = .lt) :
    a.resourceName what < b.resourceName what := by
  obtain ⟨hostname, internal⟩ := a
  obtain ⟨hostname', internal'⟩ := b
  rw [compare_eq_lt_iff] at h
  rw [String.lt_iff_toList_lt]
  rcases h with inside | ⟨same, before⟩
  · -- The first letters differ, since only internal names begin with the namespace.
    cases internal <;> cases internal' <;> simp [side] at inside
    simp [resourceName, internalNamespace, List.cons_lt_cons_iff]
  · obtain rfl : internal = internal' := by
      cases internal <;> cases internal' <;> simp [side] at same ⊢
    simp only [resourceName, String.toList_append]
    exact List.append_left_lt (String.lt_iff_toList_lt.mp before)

/-! ## The resources of a host -/

def virtualService (h : MeshHost) (s : VirtualService) : Resource :=
  .ofBody (h.resourceName "service-for") (.virtualService s)

def destinationRule (h : MeshHost) (r : DestinationRule) : Resource :=
  .ofBody (h.resourceName "rule-for") (.destinationRule r)

def serviceEntry (h : MeshHost) (e : ServiceEntry) : Resource :=
  .ofBody (h.resourceName "service-entry-for") (.serviceEntry e)

end MeshHost

namespace RouteRecord

/-- The records of a host. -/
def ofHost (host : MeshHost) (records : List RouteRecord) : List RouteRecord :=
  Table.having meshHost host records

/-- One resource for every host that has records. -/
def perHost (what : String) (body : MeshHost → List RouteRecord → Resource.Body)
    (records : List RouteRecord) : List Resource :=
  (byHost records).entries.map fun e => .ofBody (e.1.resourceName what) (body e.1 e.2)

variable {what : String} {body : MeshHost → List RouteRecord → Resource.Body}
  {records : List RouteRecord}

theorem mem_ofHost {host : MeshHost} {r : RouteRecord} :
    r ∈ ofHost host records ↔ r ∈ records ∧ r.meshHost = host :=
  Table.mem_having

theorem ofHost_ne_nil_iff {host : MeshHost} :
    ofHost host records ≠ [] ↔ ∃ r ∈ records, r.meshHost = host :=
  Table.having_ne_nil_iff

theorem mem_perHost {x : Resource} :
    x ∈ perHost what body records ↔ ∃ host, ofHost host records ≠ [] ∧
      x = .ofBody (host.resourceName what) (body host (ofHost host records)) := by
  simp only [perHost, byHost, List.mem_map, Prod.exists, Table.mem_entries_group]
  constructor
  · rintro ⟨host, _, ⟨rfl, some⟩, rfl⟩
    exact ⟨host, some, rfl⟩
  · rintro ⟨host, some, rfl⟩
    exact ⟨host, _, ⟨rfl, some⟩, rfl⟩

/-- A list by host contains one resource of a host with records, and none of any other. -/
theorem ofBody_mem_perHost {host : MeshHost} {b : Resource.Body} :
    .ofBody (host.resourceName what) b ∈ perHost what body records ↔
      ofHost host records ≠ [] ∧ b = body host (ofHost host records) := by
  rw [mem_perHost]
  constructor
  · rintro ⟨host', some, same⟩
    obtain ⟨name, rfl⟩ := Resource.ofBody_inj.mp same
    obtain rfl := MeshHost.resourceName_injective what name
    exact ⟨some, rfl⟩
  · rintro ⟨some, rfl⟩
    exact ⟨host, some, rfl⟩

/-- A list by host is in the order of its names. -/
theorem pairwise_name_perHost : ((perHost what body records).map (·.name)).Pairwise (· < ·) := by
  rw [perHost, List.map_map, List.pairwise_map]
  exact (byHost records).increasing.imp (MeshHost.resourceName_lt what)

/-- The resources of one side of the mesh are made from the records of that side. -/
theorem filter_perHost (side : Bool) :
    (perHost what body records).filter (·.isInternal = side) =
      perHost what body (records.filter (·.internal = side)) := by
  have names : ((fun x : Resource => decide (x.isInternal = side)) ∘
      fun e : MeshHost × List RouteRecord => .ofBody (e.1.resourceName what) (body e.1 e.2)) =
        fun e => decide (e.1.internal = side) := by
    funext e
    simp [Resource.isInternal, Resource.ofBody, MeshHost.hasPrefix_resourceName]
  rw [perHost, List.filter_map, names, byHost,
    Table.entries_group_filter meshHost (fun h => decide (h.internal = side))]
  rfl

/-- Lists by host are equal if the same hosts have records and the bodies agree. -/
theorem perHost_congr {records' : List RouteRecord}
    (hosts : ∀ host, ofHost host records = [] ↔ ofHost host records' = [])
    (bodies : ∀ host, ofHost host records ≠ [] → ofHost host records' ≠ [] →
      body host (ofHost host records) = body host (ofHost host records')) :
    perHost what body records = perHost what body records' := by
  let resource (host : MeshHost) (g : List RouteRecord) : Resource :=
    .ofBody (host.resourceName what) (body host g)
  refine Table.entries_group_congr (F := resource) hosts fun host some some' => ?_
  exact congrArg (Resource.ofBody _) (bodies host some some')

/-! ## The three kinds -/

theorem virtualServices_eq_perHost (ingress : Ingress) :
    virtualServices ingress records = perHost "service-for"
      (fun host g => .virtualService (VirtualService.ofRecords ingress host g)) records := rfl

theorem destinationRules_eq_perHost :
    destinationRules records = perHost "rule-for"
      (fun host g => .destinationRule (DestinationRule.ofRecords host g)) records := rfl

theorem serviceEntries_eq_perHost :
    serviceEntries records = perHost "service-entry-for"
      (fun host g => .serviceEntry (ServiceEntry.ofRecords host g))
      (records.filter hasBackends) := rfl

theorem mem_virtualServices {ingress : Ingress} {host : MeshHost} {s : VirtualService} :
    host.virtualService s ∈ virtualServices ingress records ↔
      ofHost host records ≠ [] ∧
        s = VirtualService.ofRecords ingress host (ofHost host records) := by
  rw [virtualServices_eq_perHost, MeshHost.virtualService, ofBody_mem_perHost,
    Resource.Body.virtualService.injEq]

theorem mem_destinationRules {host : MeshHost} {r : DestinationRule} :
    host.destinationRule r ∈ destinationRules records ↔
      ofHost host records ≠ [] ∧ r = DestinationRule.ofRecords host (ofHost host records) := by
  rw [destinationRules_eq_perHost, MeshHost.destinationRule, ofBody_mem_perHost,
    Resource.Body.destinationRule.injEq]

theorem mem_serviceEntries {host : MeshHost} {e : ServiceEntry} :
    host.serviceEntry e ∈ serviceEntries records ↔
      ofHost host (records.filter hasBackends) ≠ [] ∧
        e = ServiceEntry.ofRecords host (ofHost host (records.filter hasBackends)) := by
  rw [serviceEntries_eq_perHost, MeshHost.serviceEntry, ofBody_mem_perHost,
    Resource.Body.serviceEntry.injEq]

end RouteRecord

end MeshControl
