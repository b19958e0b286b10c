import Mathlib
import MeshControl.Proofs.Mesh.Contents

/-!
# What each kind reads

Every kind of resource reads a part of what the configuration is made from, and what it does not
read does not change it. Of the records, destination rules, service entries and sidecars read a
set, whose order and repetitions do not matter. Only virtual services read a list.

## Main definitions

* `SameMembers` — two lists have the same elements.
* `RouteRecord.routing`, `RouteRecord.serving`, `RouteRecord.placed`, `RouteRecord.opened` — what
  the kinds read of a record.
* `RouteRecord.firstAddress?` — what service entries read of the list besides.
* `MeshInputs.Agree` — two inputs are the same to a kind.
* `RouteRecord.Unseen` — a change of records that a kind does not see.
* `MeshInputs.resources?_congr`, `MeshInputs.resources?_eq_of_map` — a kind depends on what it
  reads.
-/

namespace MeshControl

/-- Two lists have the same elements. -/
def SameMembers {α : Type} (l l' : List α) : Prop := ∀ a, a ∈ l ↔ a ∈ l'

namespace RouteRecord

/-- The container port of the first backend. -/
def firstPort? (r : RouteRecord) : Option UInt16 := r.backends.toList.head?.map (·.containerPort)

/-- What virtual services read of a record. -/
structure Routing where
  host : MeshHost
  path : Option String
  processId : ProcessId
  weight : UInt32
  port : Option UInt16
  deriving DecidableEq

def routing (r : RouteRecord) : Routing :=
  ⟨r.meshHost, r.path, r.processId, r.weight, r.firstPort?⟩

/-- What destination rules read of a record. -/
def serving (r : RouteRecord) : MeshHost × ProcessId := (r.meshHost, r.processId)

/-- What service entries read of a record. -/
def placed (r : RouteRecord) : List (MeshHost × Workload) := r.workloads.map (r.meshHost, ·)

/-- What sidecars read of a record. -/
def opened (r : RouteRecord) : Option (ProcessId × String) :=
  if r.internal then some (r.processId, r.hostname) else none

/-- The virtual address of the first internal record of a host name that has a backend. -/
def firstAddress? (records : List RouteRecord) (hostname : String) : Option String :=
  (records.find? fun r => r.meshHost = ⟨hostname, true⟩ && r.hasBackends).bind (·.vip)

/-- A kind does not see a change of records. -/
def Unseen (f : RouteRecord → RouteRecord) : ResourceKind → Prop
  | .gateway => True
  | .virtualService => ∀ r, (f r).routing = r.routing
  | .destinationRule => ∀ r, (f r).serving = r.serving
  | .serviceEntry => ∀ r, (f r).placed = r.placed ∧ (f r).meshHost = r.meshHost ∧
      (f r).hasBackends = r.hasBackends ∧ (f r).vip = r.vip
  | .sidecar => ∀ r, (f r).opened = r.opened

/-- Every internal record has a virtual address. -/
def Addressed (records : List RouteRecord) : Prop := ∀ r ∈ records, r.internal → r.vip.isSome

end RouteRecord

/-- A kind reads the same in two inputs. -/
def MeshInputs.Agree (i j : MeshInputs) : ResourceKind → Prop
  | .gateway => ∃ certificates, i.certificates = some certificates ∧
      j.certificates = some certificates
  | .virtualService => i.records.map (·.routing) = j.records.map (·.routing)
  | .destinationRule => SameMembers (i.records.map (·.serving)) (j.records.map (·.serving))
  | .serviceEntry =>
      SameMembers (i.records.flatMap (·.placed)) (j.records.flatMap (·.placed)) ∧
        ∀ hostname, RouteRecord.firstAddress? i.records hostname =
          RouteRecord.firstAddress? j.records hostname
  | .sidecar =>
      SameMembers (i.records.filterMap (·.opened)) (j.records.filterMap (·.opened)) ∧
        SameMembers i.policies j.policies

theorem SameMembers.eq_nil_iff {α : Type} {l l' : List α} (h : SameMembers l l') :
    l = [] ↔ l' = [] := by
  rw [List.eq_nil_iff_forall_not_mem, List.eq_nil_iff_forall_not_mem]
  exact forall_congr' fun a => not_congr (h a)

namespace RouteRecord

variable {records records' : List RouteRecord}

/-! ## Destination rules -/

theorem mem_map_serving {host : MeshHost} {id : ProcessId} :
    (host, id) ∈ records.map (·.serving) ↔ id ∈ (ofHost host records).map (·.processId) := by
  simp only [List.mem_map, mem_ofHost, serving, Prod.mk.injEq, and_assoc]

theorem destinationRules_congr
    (same : SameMembers (records.map (·.serving)) (records'.map (·.serving))) :
    destinationRules records = destinationRules records' := by
  have processes : ∀ host, SameMembers ((ofHost host records).map (·.processId))
      ((ofHost host records').map (·.processId)) := by
    intro host id
    rw [← mem_map_serving, ← mem_map_serving, same]
  rw [destinationRules_eq_perHost, destinationRules_eq_perHost]
  refine perHost_congr (fun host => ?_) fun host _ _ => ?_
  · simpa using (processes host).eq_nil_iff
  · rw [DestinationRule.ofRecords, DestinationRule.ofRecords,
      SortedSet.ofList_congr (processes host)]

/-! ## Service entries -/

/-- The records of a host that have backends. -/
abbrev live (host : MeshHost) (records : List RouteRecord) : List RouteRecord :=
  ofHost host (records.filter hasBackends)

theorem mem_flatMap_placed {host : MeshHost} {w : Workload} :
    (host, w) ∈ records.flatMap (·.placed) ↔ w ∈ (live host records).flatMap (·.workloads) := by
  simp only [List.mem_flatMap, mem_ofHost, List.mem_filter, placed, List.mem_map, Prod.mk.injEq]
  constructor
  · rintro ⟨r, hr, _, hw, same, rfl⟩
    obtain ⟨b, hb, -⟩ := List.mem_map.mp hw
    exact ⟨r, ⟨⟨hr, hasBackends_of_mem hb⟩, same⟩, hw⟩
  · rintro ⟨r, ⟨⟨hr, -⟩, same⟩, hw⟩
    exact ⟨r, hr, w, hw, same, rfl⟩

theorem flatMap_workloads_eq_nil_iff {host : MeshHost} :
    (live host records).flatMap (·.workloads) = [] ↔ live host records = [] := by
  refine ⟨fun none => List.eq_nil_iff_forall_not_mem.mpr fun r hr => ?_, fun h => by rw [h]; rfl⟩
  have workloads := List.flatMap_eq_nil_iff.mp none r hr
  have backends := (List.mem_filter.mp (mem_ofHost.mp hr).1).2
  simp [hasBackends, BackendSet.isEmpty, List.map_eq_nil_iff.mp workloads] at backends

theorem head?_live (hostname : String) :
    (live ⟨hostname, true⟩ records).head? =
      records.find? fun r => r.meshHost = ⟨hostname, true⟩ && r.hasBackends := by
  rw [live, ofHost, Table.having, List.filter_filter, List.head?_filter]
  congr 1
  funext r
  rw [Bool.eq_iff_iff, Bool.and_eq_true, Bool.and_eq_true, beq_iff_eq, decide_eq_true_eq,
    Std.LawfulEqCmp.compare_eq_iff_eq, eq_comm]

/-- Where internal records have addresses, that of a host is the one of its first record. -/
theorem address?_live (addressed : Addressed records) (host : MeshHost) :
    address? (live host records) =
      if host.internal then firstAddress? records host.hostname else none := by
  have members : ∀ r ∈ live host records, r.internal = host.internal ∧
      (r.internal → r.vip.isSome) := by
    intro r hr
    obtain ⟨member, rfl⟩ := mem_ofHost.mp hr
    exact ⟨rfl, addressed r (List.mem_filter.mp member).1⟩
  obtain ⟨hostname, _ | _⟩ := host
  · refine List.findSome?_eq_none_iff.mpr fun r hr => ?_
    simp [(members r hr).1]
  · rw [if_pos rfl, firstAddress?, ← head?_live]
    cases first : live ⟨hostname, true⟩ records with
    | nil => rfl
    | cons r rest =>
      obtain ⟨inside, address⟩ := members r (first ▸ List.mem_cons_self)
      obtain ⟨vip, hv⟩ := Option.isSome_iff_exists.mp (address inside)
      simp [address?, inside, hv]

/-- Service entries depend on where the backends are and on the address of every host. -/
theorem serviceEntries_congr_address?
    (same : SameMembers (records.flatMap (·.placed)) (records'.flatMap (·.placed)))
    (addresses : ∀ host, address? (live host records) = address? (live host records')) :
    serviceEntries records = serviceEntries records' := by
  have workloads : ∀ host, SameMembers ((live host records).flatMap (·.workloads))
      ((live host records').flatMap (·.workloads)) := by
    intro host w
    rw [← mem_flatMap_placed, ← mem_flatMap_placed, same]
  rw [serviceEntries_eq_perHost, serviceEntries_eq_perHost]
  refine perHost_congr (fun host => ?_) fun host _ _ => ?_
  · rw [← flatMap_workloads_eq_nil_iff, ← flatMap_workloads_eq_nil_iff]
    exact (workloads host).eq_nil_iff
  · have all : allWorkloads (live host records) = allWorkloads (live host records') :=
      SortedSet.ofList_congr (workloads host)
    rw [ServiceEntry.ofRecords, ServiceEntry.ofRecords, all, addresses]

theorem serviceEntries_congr (addressed : Addressed records) (addressed' : Addressed records')
    (same : SameMembers (records.flatMap (·.placed)) (records'.flatMap (·.placed)))
    (addresses : ∀ hostname, firstAddress? records hostname = firstAddress? records' hostname) :
    serviceEntries records = serviceEntries records' :=
  serviceEntries_congr_address? same fun host => by
    rw [address?_live addressed, address?_live addressed', addresses]

/-! ## Virtual services -/

/-- A record with what virtual services read, and nothing else. -/
def Routing.record (x : Routing) : RouteRecord where
  hostname := x.host.hostname
  path := x.path
  processId := x.processId
  schedulerId := ""
  backends := ⟨x.port.toList.map fun port => ⟨"", 0, port⟩⟩
  weight := x.weight
  internal := x.host.internal
  vip := none

@[simp] theorem targetPort?_record (r : RouteRecord) :
    r.routing.record.targetPort? = r.targetPort? := by
  cases h : r.backends.toList.head? <;>
    simp [targetPort?, routing, Routing.record, firstPort?, h]

theorem destination_map_record (host : MeshHost) (id : ProcessId) (g : List RouteRecord) :
    VirtualService.destination host id (g.map (·.routing.record)) =
      VirtualService.destination host id g := by
  have port : (g.map (·.routing.record)).findSome? (·.targetPort?) =
      g.findSome? (·.targetPort?) := by
    simp only [List.findSome?_map, Function.comp_def, targetPort?_record]
  have weight : (g.map (·.routing.record)).head?.elim 0 (·.weight) =
      g.head?.elim 0 (·.weight) := by
    cases g <;> rfl
  rw [VirtualService.destination, port, weight, VirtualService.destination]

theorem rule_map_record (host : MeshHost) (path : PathKey) (g : List RouteRecord) :
    VirtualService.rule host path (g.map (·.routing.record)) = VirtualService.rule host path g := by
  have destinations := Table.entries_group_map (f := (·.processId))
    (c := (·.routing.record)) (fun _ => rfl) (destination_map_record host) g
  rw [VirtualService.rule, destinations, VirtualService.rule]

theorem ofRecords_map_record (ingress : Ingress) (host : MeshHost) (g : List RouteRecord) :
    VirtualService.ofRecords ingress host (g.map (·.routing.record)) =
      VirtualService.ofRecords ingress host g := by
  have rules := Table.entries_group_map (f := pathKey)
    (c := (·.routing.record)) (fun _ => rfl) (rule_map_record host) g
  rw [VirtualService.ofRecords, rules, VirtualService.ofRecords]

theorem virtualServices_map_record (ingress : Ingress) (records : List RouteRecord) :
    virtualServices ingress (records.map (·.routing.record)) =
      virtualServices ingress records := by
  let resource (host : MeshHost) (g : List RouteRecord) : Resource :=
    host.virtualService (VirtualService.ofRecords ingress host g)
  have hidden : ∀ host g, resource host (g.map (·.routing.record)) = resource host g :=
    fun host g => congrArg host.virtualService (ofRecords_map_record ingress host g)
  exact Table.entries_group_map (f := meshHost) (c := (·.routing.record)) (F := resource)
    (fun _ => rfl) hidden records

theorem virtualServices_congr {ingress : Ingress}
    (same : records.map (·.routing) = records'.map (·.routing)) :
    virtualServices ingress records = virtualServices ingress records' := by
  have mapped : records.map (·.routing.record) = records'.map (·.routing.record) := by
    simpa [List.map_map, Function.comp_def] using congrArg (List.map Routing.record) same
  rw [← virtualServices_map_record, mapped, virtualServices_map_record]

end RouteRecord

/-! ## Sidecars -/

namespace PolicyEdge

variable {records records' : List RouteRecord} {edges edges' : List PolicyEdge}

theorem mem_reachable_iff {e : PolicyEdge} {h : String} : h ∈ e.reachable records ↔
    ∃ hostname, (e.destination, hostname) ∈ records.filterMap (·.opened) ∧
      h = MeshHost.internalNamespace ++ hostname := by
  simp only [mem_reachable, List.mem_filterMap, RouteRecord.opened, Option.ite_none_right_eq_some,
    Option.some.injEq, Prod.mk.injEq]
  constructor
  · rintro ⟨r, hr, inside, process, rfl⟩
    exact ⟨r.hostname, ⟨r, hr, inside, process, rfl⟩, rfl⟩
  · rintro ⟨_, ⟨r, hr, inside, process, rfl⟩, rfl⟩
    exact ⟨r, hr, inside, process, rfl⟩

theorem ofEdges_congr {source : ProcessId}
    (hosts : SameMembers (records.filterMap (·.opened)) (records'.filterMap (·.opened)))
    (same : SameMembers edges edges') :
    Sidecar.ofEdges records source edges = Sidecar.ofEdges records' source edges' := by
  have reached : SameMembers (edges.flatMap (·.reachable records))
      (edges'.flatMap (·.reachable records')) := by
    intro h
    simp only [List.mem_flatMap, mem_reachable_iff, hosts _, same _]
  rw [Sidecar.ofEdges, Sidecar.ofEdges, SortedSet.ofList_congr reached]

theorem sidecars_congr
    (hosts : SameMembers (records.filterMap (·.opened)) (records'.filterMap (·.opened)))
    (same : SameMembers edges edges') : sidecars records edges = sidecars records' edges' := by
  have groups : ∀ source, SameMembers (Table.having (·.source) source edges)
      (Table.having (·.source) source edges') := by
    intro source e
    rw [Table.mem_having, Table.mem_having, same]
  have records_free : ∀ source g, Sidecar.ofEdges records source g =
      Sidecar.ofEdges records' source g := fun source g => ofEdges_congr hosts fun _ => Iff.rfl
  have listed := Table.entries_group_congr
    (F := fun source g => (source, Sidecar.ofEdges records' source g))
    (fun source => (groups source).eq_nil_iff)
    fun source _ _ => congrArg (Prod.mk source) (ofEdges_congr (fun _ => Iff.rfl) (groups source))
  rw [sidecars, sidecars, sidecarTable, sidecarTable]
  simp only [records_free, listed]

end PolicyEdge

/-! ## All kinds -/

namespace MeshInputs

/-- A kind that reads the same in two inputs is made alike from both. -/
theorem resources?_congr {i j : MeshInputs} (ingress : i.ingress = j.ingress)
    (addressed : RouteRecord.Addressed i.records) (addressed' : RouteRecord.Addressed j.records)
    {kind : ResourceKind} (agree : i.Agree j kind) : i.resources? kind = j.resources? kind := by
  cases kind with
  | gateway =>
    obtain ⟨certificates, hi, hj⟩ := agree
    simp only [resources?, hi, hj, ingress]
  | virtualService =>
    simp only [resources?, ingress, RouteRecord.virtualServices_congr agree]
  | destinationRule => simp only [resources?, RouteRecord.destinationRules_congr agree]
  | serviceEntry =>
    simp only [resources?, RouteRecord.serviceEntries_congr addressed addressed' agree.1 agree.2]
  | sidecar => simp only [resources?, PolicyEdge.sidecars_congr agree.1 agree.2]

/-- Records that are the same but for what a kind does not see give the same resources. -/
theorem resources?_eq_of_map {i j : MeshInputs} (ingress : i.ingress = j.ingress)
    (certificates : i.certificates = j.certificates) (policies : i.policies = j.policies)
    (addressed : RouteRecord.Addressed i.records) (addressed' : RouteRecord.Addressed j.records)
    {f : RouteRecord → RouteRecord} (same : i.records.map f = j.records.map f)
    {kind : ResourceKind} (unseen : RouteRecord.Unseen f kind) :
    i.resources? kind = j.resources? kind := by
  cases kind with
  | gateway => simp only [resources?, ingress, certificates]
  | virtualService =>
    refine resources?_congr ingress addressed addressed' ?_
    have read : ∀ records : List RouteRecord, (records.map f).map (·.routing) =
        records.map (·.routing) := fun records => by
      simp only [List.map_map, Function.comp_def, unseen _]
    show i.records.map (·.routing) = j.records.map (·.routing)
    rw [← read, same, read]
  | destinationRule =>
    refine resources?_congr ingress addressed addressed' fun a => ?_
    have read : ∀ records : List RouteRecord, (records.map f).map (·.serving) =
        records.map (·.serving) := fun records => by
      simp only [List.map_map, Function.comp_def, unseen _]
    rw [← read, same, read]
  | serviceEntry =>
    have placed : ∀ records : List RouteRecord, (records.map f).flatMap (·.placed) =
        records.flatMap (·.placed) := fun records => by
      simp only [List.flatMap_map, (unseen _).1]
    have first : ∀ (records : List RouteRecord) hostname,
        RouteRecord.firstAddress? (records.map f) hostname =
          RouteRecord.firstAddress? records hostname := fun records hostname => by
      simp only [RouteRecord.firstAddress?, List.find?_map, Function.comp_def, unseen _,
        Option.bind_map]
    refine resources?_congr ingress addressed addressed' ⟨fun a => ?_, fun hostname => ?_⟩
    · rw [← placed, same, placed]
    · rw [← first, same, first]
  | sidecar =>
    have opened : ∀ records : List RouteRecord, (records.map f).filterMap (·.opened) =
        records.filterMap (·.opened) := fun records => by
      simp only [List.filterMap_map, Function.comp_def, unseen _]
    refine resources?_congr ingress addressed addressed' ⟨fun a => ?_, fun e => ?_⟩
    · rw [← opened, same, opened]
    · rw [policies]

end MeshInputs

end MeshControl
