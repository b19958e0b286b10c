import Mathlib
import MeshControl.Proofs.Mesh.Choices

/-!
# Service entries, record by record

A service entry is known from the live records of its host. It declares the container ports of
their backends, and has an endpoint for every backend of every process. Ports and endpoints are
listed one by one from the same backends, so that every endpoint answers at a port that is
declared, under its name.

## Main definitions

* `ServiceEntry.Reaches` — the endpoint of a backend of a process.
* `ServiceEntry.Exposes` — what a service entry has to be for given records.
* `RouteRecord.serviceEntries_exact` — the hosts with live records have such service entries, and
  no others have one.
-/

namespace MeshControl

namespace ServiceEntry

/-- An endpoint answers for a workload, at the declared port for the container port. -/
structure Reaches (e : ServiceEntry) (w : Workload) (x : Endpoint) : Prop where
  address : x.address = w.backend.address
  port : ∃ p ∈ e.ports, p.number = w.backend.containerPort.toUInt32 ∧
    x.ports.entries = [(p.name, w.backend.port.toUInt32)]
  labels : x.labels = .ofProcess w.processId

/-- A service entry has the ports and the endpoints of the backends in a host's records. -/
structure Exposes (e : ServiceEntry) (host : MeshHost) (records : List RouteRecord) : Prop where
  hosts : e.hosts = [host.hostname]
  /-- Only internal hosts have an address. -/
  addresses : e.addresses = (RouteRecord.firstVip? host records).toList
  increasing : (e.ports.map (·.number)).Pairwise (· < ·)
  names : (e.ports.map (·.name)).Nodup
  port : ∀ number, number ∈ e.ports.map (·.number) ↔
    ∃ r ∈ records, r.meshHost = host ∧ ∃ b ∈ r.backends.toList, b.containerPort.toUInt32 = number
  distinct : e.endpoints.Nodup
  /-- The endpoints are those of a set of workloads, in its order. -/
  endpoints : ∃ workloads : SortedSet Workload,
    (∀ w, w ∈ workloads ↔ ∃ r ∈ records, r.meshHost = host ∧ w.backend ∈ r.backends.toList ∧
      w.processId = r.processId) ∧
    List.Forall₂ e.Reaches workloads.toList e.endpoints

/-! ## Names of ports -/

theorem portName_injOn {ports : List UInt16} {p q : UInt16} (hp : p ∈ ports) (hq : q ∈ ports)
    (same : portName ports p = portName ports q) : p = q := by
  unfold portName at same
  split_ifs at same with single
  · obtain ⟨only, rfl⟩ := List.length_eq_one_iff.mp single
    rw [List.mem_singleton.mp hp, List.mem_singleton.mp hq]
  · have digits : p.toNat.repr = q.toNat.repr := by simpa [← String.toList_inj] using same
    exact UInt16.toNat_inj.mp (Nat.repr_inj.mp digits)

/-! ## Ports -/

variable {host : MeshHost} {records : List RouteRecord} {workloads : SortedSet Workload}

theorem mem_containerPorts {port : UInt16} : port ∈ containerPorts workloads ↔
    ∃ w ∈ workloads, w.backend.containerPort = port := by
  rw [containerPorts, SortedSet.mem_toList, SortedSet.mem_ofList, List.mem_map]
  rfl

theorem pairwise_containerPorts : (containerPorts workloads).Pairwise (· < ·) :=
  (SortedSet.ofList _).increasing.imp Std.compare_eq_lt.mp

/-! ## Endpoints -/

/-- Workloads at declared ports have endpoints of their own. -/
theorem endpoint_injOn {ports : List UInt16} {w w' : Workload}
    (hw : w.backend.containerPort ∈ ports) (hw' : w'.backend.containerPort ∈ ports)
    (same : endpoint ports w = endpoint ports w') : w = w' := by
  obtain ⟨⟨address, port, containerPort⟩, id⟩ := w
  obtain ⟨⟨address', port', containerPort'⟩, id'⟩ := w'
  obtain ⟨rfl, table, labels⟩ := Endpoint.mk.inj same
  obtain ⟨name, number⟩ := Table.insert_empty_inj.mp table
  obtain ⟨-, rfl⟩ := Table.insert_empty_inj.mp labels
  obtain rfl : containerPort = containerPort' := portName_injOn hw hw' name
  obtain rfl : port = port' := UInt16.toUInt32_inj.mp number
  rfl

theorem mem_allWorkloads_live {w : Workload} :
    w ∈ RouteRecord.allWorkloads (RouteRecord.live host records) ↔ ∃ r ∈ records,
      r.meshHost = host ∧ w.backend ∈ r.backends.toList ∧ w.processId = r.processId := by
  rw [mem_workloads]
  constructor
  · rintro ⟨r, hr, hb, process⟩
    obtain ⟨member, same⟩ := RouteRecord.mem_ofHost.mp hr
    exact ⟨r, (List.mem_filter.mp member).1, same, hb, process⟩
  · rintro ⟨r, hr, same, hb, process⟩
    have live := List.mem_filter.mpr ⟨hr, RouteRecord.hasBackends_of_mem hb⟩
    exact ⟨r, RouteRecord.mem_ofHost.mpr ⟨live, same⟩, hb, process⟩

theorem exposes_ofRecords :
    (ofRecords host (RouteRecord.live host records)).Exposes host records where
  hosts := rfl
  addresses := congrArg Option.toList RouteRecord.address?_live_eq_firstVip?
  increasing := by
    rw [ofRecords, List.map_map, List.pairwise_map]
    exact pairwise_containerPorts.imp UInt16.toUInt32_lt.mpr
  names := by
    rw [ofRecords, List.map_map]
    exact pairwise_containerPorts.nodup.map_on fun _ hp _ hq => portName_injOn hp hq
  port := by
    intro number
    have declared : (ofRecords host (RouteRecord.live host records)).ports.map (·.number) =
        (containerPorts (RouteRecord.allWorkloads (RouteRecord.live host records))).map
          UInt16.toUInt32 := by
      rw [ofRecords, List.map_map]
      rfl
    simp only [declared, List.mem_map, mem_containerPorts, mem_allWorkloads_live]
    constructor
    · rintro ⟨_, ⟨w, ⟨r, hr, same, hb, -⟩, rfl⟩, rfl⟩
      exact ⟨r, hr, same, w.backend, hb, rfl⟩
    · rintro ⟨r, hr, same, b, hb, rfl⟩
      exact ⟨_, ⟨⟨b, r.processId⟩, ⟨r, hr, same, hb, rfl⟩, rfl⟩, rfl⟩
  distinct := by
    rw [ofRecords]
    refine SortedSet.nodup_toList.map_on fun w hw w' hw' => endpoint_injOn ?_ ?_
    · exact mem_containerPorts.mpr ⟨w, hw, rfl⟩
    · exact mem_containerPorts.mpr ⟨w', hw', rfl⟩
  endpoints := by
    refine ⟨_, fun w => mem_allWorkloads_live, ?_⟩
    rw [ofRecords, List.forall₂_map_right_iff, List.forall₂_same]
    intro w hw
    have port := mem_containerPorts.mpr ⟨w, hw, rfl⟩
    exact ⟨rfl, ⟨_, List.mem_map_of_mem port, rfl, rfl⟩, rfl⟩

end ServiceEntry

/-! ## Service entries -/

/-- The hosts with live records have one service entry each, which exposes their backends. There
are no others, and they are listed by name. -/
theorem RouteRecord.serviceEntries_exact (records : List RouteRecord) :
    ((serviceEntries records).map (·.name)).Pairwise (· < ·) ∧
    (∀ x ∈ serviceEntries records, ∃ (host : MeshHost) (e : ServiceEntry),
      x = host.serviceEntry e) ∧
    ∀ host : MeshHost, ((∃ e, host.serviceEntry e ∈ serviceEntries records) ↔
        ∃ r ∈ records, r.meshHost = host ∧ r.hasBackends) ∧
      ∀ e, host.serviceEntry e ∈ serviceEntries records → e.Exposes host records := by
  refine ⟨?_, fun x hx => ?_, fun host => ⟨?_, fun e he => ?_⟩⟩
  · rw [serviceEntries_eq_perHost]
    exact pairwise_name_perHost
  · rw [serviceEntries_eq_perHost] at hx
    obtain ⟨host, -, rfl⟩ := mem_perHost.mp hx
    exact ⟨host, _, rfl⟩
  · simp only [mem_serviceEntries, exists_and_left, exists_eq, and_true]
    constructor
    · intro some
      obtain ⟨r, hr⟩ := List.exists_mem_of_ne_nil _ some
      obtain ⟨member, same⟩ := mem_ofHost.mp hr
      exact ⟨r, (List.mem_filter.mp member).1, same, (List.mem_filter.mp member).2⟩
    · rintro ⟨r, hr, same, live⟩
      exact List.ne_nil_of_mem (mem_ofHost.mpr ⟨List.mem_filter.mpr ⟨hr, live⟩, same⟩)
  · obtain ⟨-, rfl⟩ := mem_serviceEntries.mp he
    exact ServiceEntry.exposes_ofRecords

/-- A host of two processes with a backend in common. Of its virtual addresses, one belongs to a
record without backends. -/
theorem RouteRecord.serviceEntries_exact_shared :
    let first : Backend := ⟨"10.0.0.1", 9001, 5432⟩
    let second : Backend := ⟨"10.0.0.2", 9002, 5433⟩
    let records : List RouteRecord :=
      [⟨"db.internal", none, "p-db", "s-1", ∅, 50, true, some "127.1.1.3"⟩,
       ⟨"db.internal", none, "p-db", "s-2", .ofList [second, first], 50, true, none⟩,
       ⟨"db.internal", some "/ro", "p-ro", "s-2", .ofList [second], 50, true, some "127.2.2.3"⟩,
       ⟨"db.internal", none, "p-db", "s-3", .ofList [first], 50, false, some "127.3.3.3"⟩]
    let inside : MeshHost := ⟨"db.internal", true⟩
    ∃ e, inside.serviceEntry e ∈ serviceEntries records ∧ e.Exposes inside records ∧
      e.addresses = ["127.2.2.3"] := by
  intro first second records inside
  obtain ⟨-, -, exact⟩ := serviceEntries_exact records
  obtain ⟨entry, content⟩ := exact inside
  have live : ∃ r ∈ records, r.meshHost = inside ∧ r.hasBackends := by decide
  obtain ⟨e, he⟩ := entry.mpr live
  have exposes := content e he
  have address : firstVip? inside records = some "127.2.2.3" := by decide
  refine ⟨e, he, exposes, ?_⟩
  rw [exposes.addresses, address, Option.toList_some]

end MeshControl
