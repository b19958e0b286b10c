import Mathlib
import MeshControl.Proofs.Mesh.Choices

/-!
# Virtual services, record by record

A virtual service is known from the records of its host. The records of a path make a rule, and
among these the records of a process make a destination. Records of other hosts, and of the other
side of the mesh, have no part in it.

## Main definitions

* `VirtualService.Rule.IsFor` — a rule asks for a path, or for nothing.
* `VirtualService.Rule.Spreads`, `VirtualService.Serves` — what a rule and a virtual service have to
  be for given records.
* `RouteRecord.virtualServices_exact` — every host with records has one such virtual service, and
  nothing else has one.
-/

namespace MeshControl

open Table (having)

namespace VirtualService

/-- The conditions by which a rule asks for a path, or for nothing. -/
def asking (path : Option String) : List PathMatch := path.toList.map .beginsWith

def Rule.IsFor (x : Rule) (path : Option String) : Prop := x.conditions = asking path

/-- A rule spreads the requests for a path over the processes of the records with that path. -/
structure Rule.Spreads (x : Rule) (host : MeshHost) (path : Option String)
    (records : List RouteRecord) : Prop where
  isFor : x.IsFor path
  /-- Every process is listed once, in the order of their ids. -/
  increasing : (x.destinations.map (·.target.subset)).Pairwise (· < ·)
  process : ∀ id, id ∈ x.destinations.map (·.target.subset) ↔
    ∃ r ∈ records, r.meshHost = host ∧ r.path = path ∧ r.processId = id
  destination : ∀ d ∈ x.destinations, d.target.host = host.hostname ∧
    RouteRecord.firstWeight? host path d.target.subset records = some d.weight ∧
    RouteRecord.firstLivePort? host path d.target.subset records = d.target.port
  retries : x.retries = if host.internal then some ⟨3, "5xx"⟩ else none
  timeout : x.timeout = if host.internal then some "15s" else none

/-- A virtual service has one rule for every path of a host's records, and no other. -/
structure Serves (s : VirtualService) (ingress : Ingress) (host : MeshHost)
    (records : List RouteRecord) : Prop where
  hosts : s.hosts = [host.hostname]
  /-- Only what is for callers outside is served by the gateway. -/
  gateways : s.gateways = if host.internal then [] else [ingress.gatewayName]
  distinct : (s.rules.map (·.conditions)).Nodup
  path : ∀ r ∈ records, r.meshHost = host → ∃! x, x ∈ s.rules ∧ x.IsFor r.path
  rule : ∀ x ∈ s.rules, ∃ path, (∃ r ∈ records, r.meshHost = host ∧ r.path = path) ∧
    x.Spreads host path records

/-! ## Rules -/

theorem asking_injective : Function.Injective asking := by
  intro p q same
  cases p <;> cases q <;> simp_all [asking]

theorem Rule.IsFor.unique {x : Rule} {p q : Option String} (hp : x.IsFor p) (hq : x.IsFor q) :
    p = q :=
  asking_injective (hp.symm.trans hq)

variable {ingress : Ingress} {host : MeshHost} {path : Option String} {records : List RouteRecord}

/-- What the records of a process decide is what its destination has. -/
theorem destination_sharing {id : ProcessId} :
    destination host id (RouteRecord.sharing host path id records) =
      ⟨⟨host.hostname, id, RouteRecord.firstLivePort? host path id records⟩,
        (RouteRecord.firstWeight? host path id records).getD 0⟩ := by
  rw [destination, RouteRecord.findSome?_targetPort?, RouteRecord.firstWeight?]
  cases (RouteRecord.sharing host path id records).head? <;> rfl

theorem rule_spreads : (rule host ⟨path⟩
    (having (·.pathKey) ⟨path⟩ (RouteRecord.ofHost host records))).Spreads host path records where
  isFor := rfl
  increasing := by
    rw [rule, List.map_map, List.pairwise_map]
    exact (Table.group _ _).increasing.imp compare_lt_iff_lt.mp
  process := by
    intro id
    simp only [List.mem_map, mem_destinations_rule, RouteRecord.having_ofHost]
    constructor
    · rintro ⟨_, ⟨id, some, rfl⟩, rfl⟩
      obtain ⟨r, hr⟩ := List.exists_mem_of_ne_nil _ some
      exact ⟨r, RouteRecord.mem_sharing.mp hr⟩
    · rintro ⟨r, hr⟩
      exact ⟨_, ⟨id, List.ne_nil_of_mem (RouteRecord.mem_sharing.mpr hr), rfl⟩, rfl⟩
  destination := by
    intro d hd
    obtain ⟨id, some, rfl⟩ := mem_destinations_rule.mp hd
    rw [RouteRecord.having_ofHost] at some ⊢
    rw [destination_sharing]
    obtain ⟨r, rest, first⟩ := List.exists_cons_of_ne_nil some
    refine ⟨rfl, ?_, rfl⟩
    simp only [RouteRecord.firstWeight?, first, List.head?_cons, Option.map_some, Option.getD_some]
  retries := rfl
  timeout := rfl

theorem nodup_conditions (g : List RouteRecord) :
    ((ofRecords ingress host g).rules.map (·.conditions)).Nodup := by
  have keys : (ofRecords ingress host g).rules.map (·.conditions) =
      (Table.group (·.pathKey) g).keys.map fun key => asking key.path := by
    simp only [ofRecords, Table.keys, List.map_map]
    rfl
  rw [keys]
  exact (Table.nodup_keys _).map fun _ _ same => congrArg PathKey.mk (asking_injective same)

theorem serves_ofRecords :
    (ofRecords ingress host (RouteRecord.ofHost host records)).Serves ingress host records where
  hosts := rfl
  gateways := rfl
  distinct := nodup_conditions _
  path := by
    rintro r hr rfl
    have own : r ∈ having (·.pathKey) r.pathKey (RouteRecord.ofHost r.meshHost records) :=
      Table.mem_having.mpr ⟨RouteRecord.mem_ofHost.mpr ⟨hr, rfl⟩, rfl⟩
    refine ⟨_, ⟨mem_rules.mpr ⟨r.pathKey, List.ne_nil_of_mem own, rfl⟩, rfl⟩, ?_⟩
    rintro x ⟨hx, asks⟩
    obtain ⟨⟨path⟩, -, rfl⟩ := mem_rules.mp hx
    obtain rfl : path = r.path := rule_spreads.isFor.unique asks
    rfl
  rule := by
    intro x hx
    obtain ⟨⟨path⟩, some, rfl⟩ := mem_rules.mp hx
    obtain ⟨r, hr⟩ := List.exists_mem_of_ne_nil _ some
    obtain ⟨member, key⟩ := Table.mem_having.mp hr
    obtain ⟨member, same⟩ := RouteRecord.mem_ofHost.mp member
    exact ⟨path, ⟨r, member, same, congrArg PathKey.path key⟩, rule_spreads⟩

end VirtualService

/-! ## Virtual services -/

/-- Every host with records has one virtual service, which serves what its records ask for. There
are no others, and they are listed by name. -/
theorem RouteRecord.virtualServices_exact (ingress : Ingress) (records : List RouteRecord) :
    ((virtualServices ingress records).map (·.name)).Pairwise (· < ·) ∧
    (∀ x ∈ virtualServices ingress records, ∃ r ∈ records, ∃ s, x = r.meshHost.virtualService s) ∧
    ∀ r ∈ records, ∃ s : VirtualService, s.Serves ingress r.meshHost records ∧
      ∀ t, r.meshHost.virtualService t ∈ virtualServices ingress records ↔ t = s := by
  refine ⟨?_, fun x hx => ?_, fun r hr => ?_⟩
  · rw [virtualServices_eq_perHost]
    exact pairwise_name_perHost
  · rw [virtualServices_eq_perHost] at hx
    obtain ⟨host, some, rfl⟩ := mem_perHost.mp hx
    obtain ⟨r, hr⟩ := List.exists_mem_of_ne_nil _ some
    obtain ⟨member, rfl⟩ := mem_ofHost.mp hr
    exact ⟨r, member, _, rfl⟩
  · refine ⟨_, VirtualService.serves_ofRecords, fun t => ?_⟩
    have some : ofHost r.meshHost records ≠ [] :=
      List.ne_nil_of_mem (mem_ofHost.mpr ⟨hr, rfl⟩)
    rw [mem_virtualServices, and_iff_right some]

/-- A host name on both sides of the mesh. Outside, a process has two records that disagree, and
the first of them has no backend. -/
theorem RouteRecord.virtualServices_exact_competing :
    let web (port : UInt16) : BackendSet := .ofList [⟨"10.0.0.1", 9001, port⟩]
    let records : List RouteRecord :=
      [⟨"shop.example", none, "p-web", "s-1", ∅, 60, false, none⟩,
       ⟨"shop.example", none, "p-web", "s-2", web 8080, 10, true, some "127.9.9.11"⟩,
       ⟨"shop.example", none, "p-web", "s-3", web 8081, 20, false, none⟩,
       ⟨"shop.example", none, "p-api", "s-4", web 8082, 40, false, none⟩]
    let outside : MeshHost := ⟨"shop.example", false⟩
    ∃ s : VirtualService, s.Serves .standard outside records ∧
      (∀ t, outside.virtualService t ∈ virtualServices .standard records ↔ t = s) ∧
      firstWeight? outside none "p-web" records = some 60 ∧
      firstLivePort? outside none "p-web" records = some 8081 := by
  intro web records outside
  obtain ⟨-, -, served⟩ := virtualServices_exact .standard records
  obtain ⟨s, serves, only⟩ := served _ List.mem_cons_self
  exact ⟨s, serves, only, by decide, by decide⟩

end MeshControl
