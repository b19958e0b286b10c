import Mathlib
import MeshControl.Proofs.Mesh.Contents
import MeshControl.Proofs.Publisher.Run

/-!
# References between resources

Resources refer to each other by hosts, subsets and port numbers. The four kinds that are made from
records are made one by one, but from the same records, so that no reference leads nowhere. A
publisher makes the four kinds at every tick, so that the same holds of every snapshot that it
offers to a sink.

## Main definitions

* `RouteResources` — the resources of the four kinds.
* `RouteResources.Resolved` — every reference leads to what it names.
* `Publisher.offered` — the snapshots that the sink is asked to take.
* `Publisher.resolved_offered` — no reference leads nowhere, in no run.
-/

namespace MeshControl

/-- The resources of the kinds that are made from records. -/
structure RouteResources where
  services : List Resource
  rules : List Resource
  entries : List Resource
  sidecars : List Resource

namespace RouteResources

def ofRecords (ingress : Ingress) (records : List RouteRecord) (edges : List PolicyEdge) :
    RouteResources where
  services := RouteRecord.virtualServices ingress records
  rules := RouteRecord.destinationRules records
  entries := RouteRecord.serviceEntries records
  sidecars := PolicyEdge.sidecars records edges

/-- Every resource is one of a host or of a policy source. -/
structure Named (x : RouteResources) : Prop where
  service : ∀ y ∈ x.services, ∃ (host : MeshHost) (s : VirtualService),
    y = host.virtualService s ∧ s.hosts = [host.hostname]
  rule : ∀ y ∈ x.rules, ∃ (host : MeshHost) (r : DestinationRule),
    y = host.destinationRule r ∧ r.host = host.hostname
  entry : ∀ y ∈ x.entries, ∃ (host : MeshHost) (e : ServiceEntry),
    y = host.serviceEntry e ∧ e.hosts = [host.hostname]
  sidecar : ∀ y ∈ x.sidecars, ∃ (name : String) (s : Sidecar), y = .ofBody name (.sidecar s)

/-- Every reference from a resource of a host leads to the resource of that host that it names. -/
structure Resolved (x : RouteResources) : Prop where
  named : x.Named
  /-- Destinations are labelled subsets of the destination rule. -/
  destination : ∀ (host : MeshHost) (s : VirtualService), host.virtualService s ∈ x.services →
    ∀ d ∈ s.destinations, d.target.host = host.hostname ∧
      ∃ r : DestinationRule, host.destinationRule r ∈ x.rules ∧ r.host = d.target.host ∧
        ⟨d.target.subset, .ofProcess d.target.subset⟩ ∈ r.subsets
  /-- There is no subset without a destination. -/
  subset : ∀ (host : MeshHost) (r : DestinationRule), host.destinationRule r ∈ x.rules →
    ∀ sub ∈ r.subsets, ∃ s : VirtualService, host.virtualService s ∈ x.services ∧
      ∃ d ∈ s.destinations, d.target.host = r.host ∧ d.target.subset = sub.name
  /-- The port of a destination is declared by the service entry. -/
  port : ∀ (host : MeshHost) (s : VirtualService), host.virtualService s ∈ x.services →
    ∀ d ∈ s.destinations, ∀ number, d.target.port = some number →
      ∃ e : ServiceEntry, host.serviceEntry e ∈ x.entries ∧ e.hosts = s.hosts ∧
        ∃ p ∈ e.ports, p.number = number
  /-- Endpoints are labelled with subsets of the destination rule. -/
  endpoint : ∀ (host : MeshHost) (e : ServiceEntry), host.serviceEntry e ∈ x.entries →
    ∀ y ∈ e.endpoints, ∃ (id : ProcessId) (r : DestinationRule), y.labels = .ofProcess id ∧
      host.destinationRule r ∈ x.rules ∧ ∃ sub ∈ r.subsets, sub.name = id
  /-- A host that a sidecar lets requests through to is internal and has a virtual service. -/
  egress : ∀ (name : String) (s : Sidecar), .ofBody name (.sidecar s) ∈ x.sidecars →
    ∀ listener ∈ s.egress, ∀ target ∈ listener, ∃ (hostname : String) (v : VirtualService),
      target = MeshHost.internalNamespace ++ hostname ∧ v.hosts = [hostname] ∧
        (MeshHost.mk hostname true).virtualService v ∈ x.services

end RouteResources

/-- The resources of the four kinds in a snapshot that has them all. -/
def Snapshot.routeResources? (s : Snapshot) : Option RouteResources := do
  let services ← s.get? .virtualService
  let rules ← s.get? .destinationRule
  let entries ← s.get? .serviceEntry
  let sidecars ← s.get? .sidecar
  return ⟨services.resources, rules.resources, entries.resources, sidecars.resources⟩

/-- The snapshots that a run asks the sink to take, in order. -/
def Publisher.offered (p : Publisher) : List Tick → List Snapshot
  | [] => []
  | t :: ticks => (p.offer? t.inputs).toList ++ (p.after t).offered ticks

/-! ## Records -/

namespace RouteResources

variable (ingress : Ingress) (records : List RouteRecord) (edges : List PolicyEdge)

theorem named_ofRecords : (ofRecords ingress records edges).Named where
  service := by
    intro y (hy : y ∈ RouteRecord.virtualServices ingress records)
    rw [RouteRecord.virtualServices_eq_perHost] at hy
    obtain ⟨host, -, rfl⟩ := RouteRecord.mem_perHost.mp hy
    exact ⟨host, _, rfl, rfl⟩
  rule := by
    intro y (hy : y ∈ RouteRecord.destinationRules records)
    rw [RouteRecord.destinationRules_eq_perHost] at hy
    obtain ⟨host, -, rfl⟩ := RouteRecord.mem_perHost.mp hy
    exact ⟨host, _, rfl, rfl⟩
  entry := by
    intro y (hy : y ∈ RouteRecord.serviceEntries records)
    rw [RouteRecord.serviceEntries_eq_perHost] at hy
    obtain ⟨host, -, rfl⟩ := RouteRecord.mem_perHost.mp hy
    exact ⟨host, _, rfl, rfl⟩
  sidecar := by
    intro y hy
    obtain ⟨e, -, rfl⟩ := List.mem_map.mp hy
    exact ⟨e.1, e.2, rfl⟩

variable {records} in
/-- A host with a record has a virtual service and a destination rule. -/
theorem exists_of_mem {host : MeshHost} {r : RouteRecord}
    (hr : r ∈ RouteRecord.ofHost host records) :
    host.virtualService (.ofRecords ingress host (RouteRecord.ofHost host records)) ∈
        (ofRecords ingress records edges).services ∧
      host.destinationRule (.ofRecords host (RouteRecord.ofHost host records)) ∈
        (ofRecords ingress records edges).rules :=
  ⟨RouteRecord.mem_virtualServices.mpr ⟨List.ne_nil_of_mem hr, rfl⟩,
    RouteRecord.mem_destinationRules.mpr ⟨List.ne_nil_of_mem hr, rfl⟩⟩

theorem resolved_ofRecords : (ofRecords ingress records edges).Resolved where
  named := named_ofRecords ingress records edges
  destination := by
    intro host s hs d hd
    obtain ⟨-, rfl⟩ := RouteRecord.mem_virtualServices.mp hs
    obtain ⟨same, r, hr, process⟩ := VirtualService.exists_mem_of_mem_destinations hd
    refine ⟨same, _, (exists_of_mem ingress edges hr).2, same.symm, ?_⟩
    exact DestinationRule.mem_subsets.mpr ⟨r, hr, by rw [process]⟩
  subset := by
    intro host rule hrule sub hsub
    obtain ⟨-, rfl⟩ := RouteRecord.mem_destinationRules.mp hrule
    obtain ⟨r, hr, rfl⟩ := DestinationRule.mem_subsets.mp hsub
    exact ⟨_, (exists_of_mem ingress edges hr).1, VirtualService.exists_destination hr⟩
  port := by
    intro host s hs d hd number hn
    obtain ⟨-, rfl⟩ := RouteRecord.mem_virtualServices.mp hs
    obtain ⟨r, hr, b, hb, rfl⟩ := VirtualService.exists_backend_of_port hd hn
    obtain ⟨member, same⟩ := RouteRecord.mem_ofHost.mp hr
    -- The record has a backend, so that the service entry is made from it too.
    have live : r ∈ RouteRecord.ofHost host (records.filter RouteRecord.hasBackends) :=
      RouteRecord.mem_ofHost.mpr
        ⟨List.mem_filter.mpr ⟨member, RouteRecord.hasBackends_of_mem hb⟩, same⟩
    exact ⟨_, RouteRecord.mem_serviceEntries.mpr ⟨List.ne_nil_of_mem live, rfl⟩, rfl,
      ServiceEntry.exists_port live hb⟩
  endpoint := by
    intro host e he y hy
    obtain ⟨-, rfl⟩ := RouteRecord.mem_serviceEntries.mp he
    obtain ⟨r, live, labels⟩ := ServiceEntry.exists_mem_of_mem_endpoints hy
    obtain ⟨member, same⟩ := RouteRecord.mem_ofHost.mp live
    have hr : r ∈ RouteRecord.ofHost host records :=
      RouteRecord.mem_ofHost.mpr ⟨(List.mem_filter.mp member).1, same⟩
    exact ⟨r.processId, _, labels, (exists_of_mem ingress edges hr).2, _,
      DestinationRule.mem_subsets.mpr ⟨r, hr, rfl⟩, rfl⟩
  egress := by
    intro name s hs listener hl target ht
    obtain ⟨r, hr, inside, rfl⟩ := PolicyEdge.exists_mem_of_mem_egress hs hl ht
    have own : r ∈ RouteRecord.ofHost ⟨r.hostname, true⟩ records := by
      refine RouteRecord.mem_ofHost.mpr ⟨hr, ?_⟩
      rw [RouteRecord.meshHost, inside]
    exact ⟨r.hostname, _, rfl, rfl, (exists_of_mem ingress edges own).1⟩

end RouteResources

/-! ## Snapshots -/

namespace Publisher

/-- A snapshot that is offered has what was made of the records. -/
theorem routeResources?_offer {p : Publisher} {i : MeshInputs} {s : Snapshot}
    (offered : p.offer? i = some s) :
    s.routeResources? = some (.ofRecords i.ingress i.records i.policies) := by
  have releases := eq_snapshot_of_offer? offered
  have made : ∀ kind resources, i.resources? kind = some resources →
      ∃ k, s.get? kind = some k ∧ k.resources = resources := by
    intro kind resources made
    obtain ⟨number, revised⟩ := revise_made (p.accepted.get? kind) resources
    rw [releases, get?_snapshot, get?_next, made, revised]
    exact ⟨_, rfl, rfl⟩
  obtain ⟨services, hs, resources⟩ := made .virtualService _ rfl
  obtain ⟨rules, hr, resources'⟩ := made .destinationRule _ rfl
  obtain ⟨entries, he, resources''⟩ := made .serviceEntry _ rfl
  obtain ⟨sidecars, hc, resources'''⟩ := made .sidecar _ rfl
  simp [Snapshot.routeResources?, hs, hr, he, hc, resources, resources', resources'', resources''',
    RouteResources.ofRecords]

theorem exists_inputs_of_mem_offered {p : Publisher} {ticks : List Tick} {s : Snapshot}
    (hs : s ∈ p.offered ticks) : ∃ (p' : Publisher) (t : Tick), p'.offer? t.inputs = some s := by
  induction ticks generalizing p with
  | nil => exact absurd hs List.not_mem_nil
  | cons t ticks ih =>
    obtain here | later := List.mem_append.mp hs
    · exact ⟨p, t, Option.mem_toList.mp here⟩
    · exact ih later

/-- Whatever the records and the policy edges are, no reference leads nowhere in what is made of
them, and so in no snapshot that a publisher offers, whatever changed before and whatever the sink
answers. -/
theorem resolved_offered :
    (∀ ingress records edges, (RouteResources.ofRecords ingress records edges).Resolved) ∧
    ∀ (p : Publisher) (ticks : List Tick), ∀ s ∈ p.offered ticks,
      ∃ x, s.routeResources? = some x ∧ x.Resolved := by
  refine ⟨RouteResources.resolved_ofRecords, fun p ticks s hs => ?_⟩
  obtain ⟨p', t, offer⟩ := exists_inputs_of_mem_offered hs
  exact ⟨_, routeResources?_offer offer, RouteResources.resolved_ofRecords _ _ _⟩

/-- One host name on both sides of the mesh, a process that has no backends, and a source that may
send requests to it. The sink refuses the first of two offers. -/
theorem resolved_offered_both_sides :
    let db : BackendSet := .ofList [⟨"10.255.0.1", 5432, 5432⟩, ⟨"10.255.0.2", 5433, 5433⟩]
    let records : List RouteRecord :=
      [⟨"shop.example", some "/db", "p-db", "s-1", db, 40, true, some "127.9.9.11"⟩,
       ⟨"shop.example", none, "p-new", "s-2", ∅, 60, true, some "127.9.9.11"⟩,
       ⟨"shop.example", none, "p-web", "s-3", .ofList [⟨"10.0.0.1", 9001, 8080⟩], 100, false, none⟩]
    let inputs : MeshInputs := ⟨.standard, records, none, [⟨"p-web", "p-new"⟩]⟩
    let ticks : List Tick := [⟨inputs, .error (.unavailable "down")⟩, ⟨inputs, .ok ()⟩]
    ∃ s ∈ init.offered ticks, ∃ x, s.routeResources? = some x ∧ x.Resolved := by
  intro db records inputs ticks
  have changed : init.next inputs ≠ init.accepted := by
    rw [Ne, next_eq_accepted_iff]
    intro quiet
    exact quiet .virtualService ⟨_, rfl, nofun⟩
  have offer : init.offer? inputs = some (snapshot (init.next inputs)) := if_neg changed
  have member : snapshot (init.next inputs) ∈ init.offered ticks :=
    List.mem_append_left _ (Option.mem_toList.mpr offer)
  exact ⟨_, member, resolved_offered.2 init ticks _ member⟩

end Publisher

end MeshControl
