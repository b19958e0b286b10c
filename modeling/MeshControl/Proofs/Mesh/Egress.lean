import Mathlib
import MeshControl.Proofs.Mesh.Footprint

/-!
# Sidecars, source by source

A sidecar lets the workloads of a source through to what the edges of the source lead to, and to
nothing else. An edge leads to the internal hosts of its destination, so the policy composes two
relations, from sources to processes and from processes to hosts, and a sidecar lists what one
source is related to.

## Main definitions

* `PolicyEdge.Leads` — the edges of a source lead to an internal host.
* `Sidecar.Enforces` — what a sidecar has to be for a source.
* `PolicyEdge.sidecars_exact` — every source has one such sidecar, unless it has the name of the
  default, and nothing else of the records and edges counts.
-/

namespace MeshControl

open Std
open Table (having)

namespace PolicyEdge

/-- An edge of the source has a destination with an internal record for the host. -/
def Leads (records : List RouteRecord) (edges : List PolicyEdge) (source : ProcessId)
    (hostname : String) : Prop :=
  ∃ e ∈ edges, e.source = source ∧
    ∃ r ∈ records, r.internal ∧ r.processId = e.destination ∧ r.hostname = hostname

end PolicyEdge

/-- A sidecar allows the workloads of a source what the edges lead to, and nothing else. -/
structure Sidecar.Enforces (s : Sidecar) (records : List RouteRecord) (edges : List PolicyEdge)
    (source : ProcessId) : Prop where
  selector : s.selector = some (.ofProcess source)
  /-- The one listener has every host once, in order. -/
  egress : ∃ hosts : List String, s.egress = [hosts] ∧ hosts.Pairwise (· < ·) ∧
    (∀ hostname, MeshHost.internalNamespace ++ hostname ∈ hosts ↔
      PolicyEdge.Leads records edges source hostname) ∧
    ∀ target ∈ hosts, ∃ hostname, target = MeshHost.internalNamespace ++ hostname

namespace PolicyEdge

variable {records : List RouteRecord} {edges : List PolicyEdge} {source : ProcessId}

/-! ## The sidecar of a source -/

/-- What the edges of a source reach are the hosts they lead to. -/
theorem mem_flatMap_reachable {target : String} :
    target ∈ (having (·.source) source edges).flatMap (·.reachable records) ↔
      ∃ hostname, Leads records edges source hostname ∧
        target = MeshHost.internalNamespace ++ hostname := by
  simp only [List.mem_flatMap, Table.mem_having, mem_reachable]
  constructor
  · rintro ⟨e, ⟨he, same⟩, r, hr, inside, process, rfl⟩
    exact ⟨_, ⟨e, he, same, r, hr, inside, process, rfl⟩, rfl⟩
  · rintro ⟨_, ⟨e, he, same, r, hr, inside, process, rfl⟩, rfl⟩
    exact ⟨e, ⟨he, same⟩, r, hr, inside, process, rfl⟩

theorem enforces_ofEdges :
    (Sidecar.ofEdges records source (having (·.source) source edges)).Enforces
      records edges source where
  selector := rfl
  egress := by
    refine ⟨_, rfl, ?_, fun hostname => ?_, fun target ht => ?_⟩
    · exact (SortedSet.ofList _).increasing.imp compare_lt_iff_lt.mp
    · rw [SortedSet.mem_toList, SortedSet.mem_ofList, mem_flatMap_reachable]
      constructor
      · rintro ⟨hostname', leads, same⟩
        rwa [(String.append_right_inj _).mp same]
      · exact fun leads => ⟨hostname, leads, rfl⟩
    · rw [SortedSet.mem_toList, SortedSet.mem_ofList, mem_flatMap_reachable] at ht
      obtain ⟨hostname, -, rfl⟩ := ht
      exact ⟨hostname, rfl⟩

end PolicyEdge

theorem Sidecar.Enforces.egress_of_not_leads {s : Sidecar} {records : List RouteRecord}
    {edges : List PolicyEdge} {source : ProcessId} (h : s.Enforces records edges source)
    (nowhere : ∀ hostname, ¬ PolicyEdge.Leads records edges source hostname) :
    s.egress = [[]] := by
  obtain ⟨hosts, egress, -, exact, named⟩ := h.egress
  have none : hosts = [] := by
    refine List.eq_nil_iff_forall_not_mem.mpr fun target ht => ?_
    obtain ⟨hostname, rfl⟩ := named target ht
    exact nowhere hostname ((exact hostname).mp ht)
  rw [egress, none]

namespace PolicyEdge

variable {records : List RouteRecord} {edges : List PolicyEdge}

/-! ## The sidecars by name -/

theorem get?_sidecarTable_default :
    (sidecarTable records edges).get? Sidecar.defaultName = some .denying := by
  rw [sidecarTable, Table.get?_insert, if_pos ReflCmp.compare_self]

theorem get?_sidecarTable {source : ProcessId} (other : source ≠ Sidecar.defaultName)
    {s : Sidecar} : (sidecarTable records edges).get? source = some s ↔
      source ∈ edges.map (·.source) ∧
        s = Sidecar.ofEdges records source (having (·.source) source edges) := by
  have different : compare source Sidecar.defaultName ≠ .eq :=
    fun same => other (LawfulEqCmp.compare_eq_iff_eq.mp same)
  have edge : source ∈ edges.map (·.source) ↔ having (·.source) source edges ≠ [] := by
    rw [List.mem_map, Table.having_ne_nil_iff]
  rw [sidecarTable, Table.get?_insert, if_neg different,
    Table.get?_ofList_map_entries (Sidecar.ofEdges records), Table.get?_group, edge]
  split_ifs with none
  · simp [none]
  · simp [none, eq_comm]

theorem pairwise_name_sidecars : ((sidecars records edges).map (·.name)).Pairwise (· < ·) := by
  rw [sidecars, List.map_map, List.pairwise_map]
  exact (sidecarTable records edges).increasing.imp compare_lt_iff_lt.mp

theorem mem_name_sidecars {name : String} : name ∈ (sidecars records edges).map (·.name) ↔
    name = Sidecar.defaultName ∨ name ∈ edges.map (·.source) := by
  have keys : (sidecars records edges).map (·.name) = (sidecarTable records edges).keys := by
    rw [sidecars, List.map_map]
    rfl
  rw [keys, Table.mem_keys]
  by_cases default : name = Sidecar.defaultName
  · simp [default, get?_sidecarTable_default]
  · simp [default, get?_sidecarTable default]

/-! ## All sidecars -/

/-- The default sidecar allows nothing. Every source of an edge with another name has one sidecar,
which enforces what the edges say, and there are no more. Hosts that are only known outside are in
none of them, and neither the order nor the repetitions of records and edges matter. -/
theorem sidecars_exact (records : List RouteRecord) (edges : List PolicyEdge) :
    ((sidecars records edges).map (·.name)).Pairwise (· < ·) ∧
    (∀ x ∈ sidecars records edges, ∃ name s, x = .ofBody name (.sidecar s) ∧
      (name = "default" ∨ name ∈ edges.map (·.source))) ∧
    (∀ s, .ofBody "default" (.sidecar s) ∈ sidecars records edges ↔ s = ⟨none, [[]]⟩) ∧
    (∀ source ∈ edges.map (·.source), source ≠ "default" →
      ∃ s : Sidecar, s.Enforces records edges source ∧
        (∀ t, .ofBody source (.sidecar t) ∈ sidecars records edges ↔ t = s) ∧
        ((∀ e ∈ edges, e.source = source →
          ∀ r ∈ records, r.internal → r.processId ≠ e.destination) → s.egress = [[]])) ∧
    (∀ hostname, (∀ r ∈ records, r.hostname = hostname → ¬ r.internal) →
      ∀ name s, .ofBody name (.sidecar s) ∈ sidecars records edges →
        ∀ hosts ∈ s.egress, MeshHost.internalNamespace ++ hostname ∉ hosts) ∧
    ∀ records' edges', SameMembers records' records → SameMembers edges' edges →
      sidecars records' edges' = sidecars records edges := by
  refine ⟨pairwise_name_sidecars, fun x hx => ?_, fun s => ?_, fun source hsource other => ?_,
    fun hostname outside name s hs hosts hl ht => ?_, fun records' edges' same same' => ?_⟩
  · obtain ⟨⟨name, s⟩, -, rfl⟩ := List.mem_map.mp hx
    exact ⟨name, s, rfl, mem_name_sidecars.mp (List.mem_map_of_mem hx)⟩
  · rw [mem_sidecars, ← Sidecar.defaultName, get?_sidecarTable_default, Option.some.injEq, eq_comm]
    rfl
  · refine ⟨_, enforces_ofEdges, fun t => ?_, fun unknown => ?_⟩
    · rw [mem_sidecars, get?_sidecarTable other, and_iff_right hsource]
    · have nowhere : ∀ hostname, ¬ Leads records edges source hostname := by
        rintro hostname ⟨e, he, own, r, hr, inside, process, -⟩
        exact unknown e he own r hr inside process
      exact enforces_ofEdges.egress_of_not_leads nowhere
  · obtain ⟨r, hr, inside, same⟩ := exists_mem_of_mem_egress hs hl ht
    exact outside r hr ((String.append_right_inj _).mp same).symm inside
  · refine sidecars_congr (fun opened => ?_) same'
    simp only [List.mem_filterMap, same _]

/-- A source has an edge twice and one to a process whose other host is only known outside. Another
one has an edge to a process without records, and a third has the name of the default. -/
theorem sidecars_exact_frontend :
    let records : List RouteRecord :=
      [⟨"db.internal", none, "db", "s-1", .ofList [⟨"10.255.0.1", 5432, 5432⟩], 100, true,
        some "127.0.0.7"⟩,
       ⟨"cache.internal", none, "cache", "s-2", ∅, 100, true, some "127.0.0.11"⟩,
       ⟨"db.example", none, "db", "s-1", ∅, 100, false, none⟩]
    let edges : List PolicyEdge :=
      [⟨"frontend", "db"⟩, ⟨"worker", "unknown"⟩, ⟨"frontend", "cache"⟩, ⟨"frontend", "db"⟩,
       ⟨"default", "db"⟩]
    ∃ frontend worker : Sidecar,
      frontend.Enforces records edges "frontend" ∧ worker.egress = [[]] ∧
      (∀ s, .ofBody "frontend" (.sidecar s) ∈ sidecars records edges ↔ s = frontend) ∧
      (∀ s, .ofBody "worker" (.sidecar s) ∈ sidecars records edges ↔ s = worker) ∧
      Leads records edges "frontend" "cache.internal" ∧
      (∀ hosts ∈ frontend.egress, "internal/db.example" ∉ hosts) ∧
      sidecars records.reverse (edges ++ edges) = sidecars records edges := by
  intro records edges
  obtain ⟨-, -, -, sources, outside, same⟩ := sidecars_exact records edges
  obtain ⟨frontend, enforces, only, -⟩ := sources "frontend" (by decide) (by decide)
  obtain ⟨worker, -, only', nothing⟩ := sources "worker" (by decide) (by decide)
  refine ⟨frontend, worker, enforces, nothing (by decide), only, only', ?_, ?_, ?_⟩
  · exact ⟨⟨"frontend", "cache"⟩, by decide, rfl, records[1], by decide, rfl, rfl, rfl⟩
  · exact outside "db.example" (by decide) "frontend" frontend ((only frontend).mpr rfl)
  · exact same _ _ (fun r => List.mem_reverse) fun e => by simp

end PolicyEdge

end MeshControl
