import Mathlib
import MeshControl.Proofs.BackendSet
import MeshControl.Proofs.Collector.Order
import MeshControl.Proofs.Reconciler.EffectiveLog

/-!
# Records as a join

The records are the join of the three directories: a mapping meets the route that it names and
the scheduler processes that its process is associated with. Every such meeting gives one record,
and what the record says is read off the three parts and the live backends.

## Main definitions

* `Join`, `DesiredState.Holds` — a meeting, and that the directories contain it.
* `Join.Gives` — what the record of a meeting says.
* `Join.Ordered` — the order of meetings with their records.
* `DesiredState.collect_eq_join` — the records are those of the meetings, each once and in order.
-/

namespace MeshControl

/-- A stored mapping with its key, a route and a scheduler process. -/
structure Join where
  key : MappingKey
  mapping : RouteMapping
  route : Route
  schedulerId : SchedulerId

/-- The mapping is stored, the route is the one that it names, and the scheduler process is
associated with its process. -/
structure DesiredState.Holds (d : DesiredState) (j : Join) : Prop where
  mapping : d.mappings.get? j.key = some j.mapping
  route : d.routes.get? j.mapping.routeId = some j.route
  association : ∃ ids, d.associations.get? j.mapping.processId = some ids ∧ j.schedulerId ∈ ids

namespace Join

/-- What the record of a join says. -/
structure Gives (d : DesiredState) (live : LiveBackends) (j : Join) (r : RouteRecord) : Prop where
  hostname : r.hostname = Text.lower j.route.host
  path : ∀ p, r.path = some p ↔ j.route.path = some p ∧ p ≠ ""
  process : r.processId = j.mapping.processId
  scheduler : r.schedulerId = j.schedulerId
  weight : r.weight = d.mappings.share j.mapping
  internal : r.internal = j.route.isInternal
  /-- An address of the route's own comes before the one that its host name gives. -/
  vip : r.vip =
    if r.internal then some (j.route.vip.getD (Vip.ofHostname r.hostname).text) else none
  /-- Nothing of the set is lost but backends without a port. -/
  backends : r.backends.toList.Perm
    ((if r.internal then live.internal j.schedulerId
      else live.external j.schedulerId).toList.filter (·.port ≠ 0))
  increasing : r.backends.toList.Pairwise Backend.Precedes

/-- Records stand in their order, and those that the order does not tell apart in the order of the
keys of their mappings. -/
def Ordered (a b : Join × RouteRecord) : Prop :=
  a.2.Precedes b.2 ∨ a.2.Tied b.2 ∧ compare a.1.key b.1.key = .lt

end Join

/-! ## Backends with a port -/

namespace BackendSet

variable {s : BackendSet}

theorem Distinct.toList_usable (h : s.Distinct) :
    s.usable.toList =
      (s.toList.filter (·.port ≠ 0)).mergeSort fun a b => (compare a b).isLE := by
  refine toList_ofList ?_
  have kept : ((s.toList.filter (·.port ≠ 0)).map Backend.key).Nodup :=
    h.sublist (List.filter_sublist.map _)
  exact ((List.mergeSort_perm _ _).map _).nodup_iff.mpr kept

theorem Distinct.perm_usable (h : s.Distinct) :
    s.usable.toList.Perm (s.toList.filter (·.port ≠ 0)) := by
  rw [h.toList_usable]
  exact List.mergeSort_perm _ _

theorem Distinct.pairwise_usable (h : s.Distinct) :
    s.usable.toList.Pairwise Backend.Precedes := by
  have different : s.usable.toList.Nodup :=
    h.perm_usable.nodup_iff.mpr ((List.Nodup.of_map _ h).filter _)
  have sorted : s.usable.toList.Pairwise fun a b => (compare a b).isLE := by
    rw [h.toList_usable]
    exact List.pairwise_mergeSort (fun a b c => Std.TransCmp.isLE_trans) isLE_total _
  refine (sorted.and different).imp fun {a b} ⟨le, ne⟩ => ?_
  obtain lt | eq := Ordering.isLE_iff_eq_lt_or_eq_eq.mp le
  · exact Backend.compare_eq_lt_iff.mp lt
  · exact absurd (Std.LawfulEqCmp.compare_eq_iff_eq.mp eq) ne

end BackendSet

/-- A reconciler does not keep two backends with one address and port. -/
theorem Reconciler.distinct_live (ssh : UInt16) (updates : List Update) :
    let live := ((init ssh).applyAll updates).live
    (∀ id, (live.external id).Distinct) ∧ ∀ id, (live.internal id).Distinct := by
  have distinct : ∀ side id, (((init ssh).applyAll updates).store.sets side id).Distinct := by
    intro side id
    rw [sets_applyAll]
    exact EffectiveLog.distinct_sets _ ssh side id
  exact ⟨distinct .external, distinct .internal⟩

namespace DesiredState

variable (d : DesiredState) (live : LiveBackends)

/-! ## One join -/

/-- The record of a join. -/
def record (j : Join) : RouteRecord := d.recordOf live j.mapping j.route j.schedulerId

theorem gives_record (external : ∀ id, (live.external id).Distinct)
    (internal : ∀ id, (live.internal id).Distinct) (j : Join) :
    j.Gives d live (d.record live j) := by
  have distinct : (if j.route.isInternal then live.internal j.schedulerId
      else live.external j.schedulerId).Distinct := by
    split_ifs
    · exact internal _
    · exact external _
  refine
    { hostname := rfl, process := rfl, scheduler := rfl, weight := rfl, internal := rfl, vip := rfl
      path := fun p => ?_
      backends := distinct.perm_usable
      increasing := distinct.pairwise_usable }
  simp [record, recordOf, Route.pathPrefix, Option.filter_eq_some_iff]

/-! ## All joins -/

/-- The joins of a stored mapping. -/
def joinsOf (e : MappingKey × RouteMapping) : List Join :=
  match d.routes.get? e.2.routeId, d.associations.get? e.2.processId with
  | some r, some ids => ids.toList.map (⟨e.1, e.2, r, ·⟩)
  | _, _ => []

def joins : List Join := d.mappings.byKey.entries.flatMap d.joinsOf

variable {d} in
theorem mem_joinsOf {e : MappingKey × RouteMapping} {j : Join} :
    j ∈ d.joinsOf e ↔ (j.key, j.mapping) = e ∧ d.routes.get? e.2.routeId = some j.route ∧
      ∃ ids, d.associations.get? e.2.processId = some ids ∧ j.schedulerId ∈ ids := by
  unfold joinsOf
  split
  · rename_i r ids route association
    rw [route, association]
    constructor
    · intro h
      obtain ⟨id, member, rfl⟩ := List.mem_map.mp h
      exact ⟨rfl, rfl, ids, rfl, member⟩
    · rintro ⟨rfl, same, _, found, member⟩
      obtain rfl := Option.some.inj same
      obtain rfl := Option.some.inj found
      exact List.mem_map_of_mem member
  · rename_i missing
    refine iff_of_false List.not_mem_nil ?_
    rintro ⟨_, route, ids, association, _⟩
    exact missing _ _ route association

variable {d} in
theorem mem_joins {j : Join} : j ∈ d.joins ↔ d.Holds j := by
  simp only [joins, List.mem_flatMap, mem_joinsOf]
  constructor
  · rintro ⟨_, stored, rfl, route, association⟩
    exact ⟨(Table.get?_eq_some_iff _).mpr stored, route, association⟩
  · rintro ⟨stored, route, association⟩
    exact ⟨_, (Table.get?_eq_some_iff _).mp stored, rfl, route, association⟩

/-- The joins stand in the order of their keys, those of one key in that of their scheduler
processes. -/
theorem pairwise_joins : d.joins.Pairwise fun a b =>
    compare a.key b.key = .lt ∨ a.key = b.key ∧ compare a.schedulerId b.schedulerId = .lt := by
  rw [joins, List.pairwise_flatMap]
  constructor
  · rintro ⟨key, mapping⟩ _
    unfold joinsOf
    split
    · rename_i ids _ _
      rw [List.pairwise_map]
      exact ids.increasing.imp fun h => .inr ⟨rfl, h⟩
    · exact .nil
  · refine d.mappings.byKey.increasing.imp fun {e f} h a ha b hb => .inl ?_
    rw [← (mem_joinsOf.mp ha).1, ← (mem_joinsOf.mp hb).1] at h
    exact h

theorem nodup_joins : d.joins.Nodup := by
  refine d.pairwise_joins.imp fun {a b} h => ?_
  rintro rfl
  simp at h

theorem flatMap_recordsOf :
    d.mappings.list.flatMap (d.recordsOf live) = d.joins.map (d.record live) := by
  rw [RouteMapping.Directory.list, Table.values, joins, List.flatMap_map, List.map_flatMap]
  congr 1
  funext e
  unfold recordsOf joinsOf
  cases d.routes.get? e.2.routeId with
  | none => rfl
  | some r =>
    cases d.associations.get? e.2.processId with
    | none => rfl
    | some ids =>
      simp only [List.map_map]
      rfl

/-! ## Joins in the order of their records -/

/-- Whether the record of a join does not come after that of another. -/
def notAfter (a b : Join) : Bool := (RouteRecord.cmp (d.record live a) (d.record live b)).isLE

/-- The joins, sorted by what their records say. -/
def ranked : List Join := d.joins.mergeSort (d.notAfter live)

theorem collect_eq_map : d.collect live = (d.ranked live).map (d.record live) := by
  rw [collect, flatMap_recordsOf]
  have mapped := List.map_mergeSort (l := d.joins) (f := d.record live) (r := d.notAfter live)
    (s := fun a b => (RouteRecord.cmp a b).isLE) fun _ _ _ _ => rfl
  exact mapped.symm

theorem perm_ranked : (d.ranked live).Perm d.joins := List.mergeSort_perm _ _

theorem pairwise_ranked : (d.ranked live).Pairwise fun a b =>
    Join.Ordered (a, d.record live a) (b, d.record live b) := by
  have trans : ∀ a b c, d.notAfter live a b → d.notAfter live b c → d.notAfter live a c :=
    fun _ _ _ => RouteRecord.isLE_cmp_trans _ _ _
  have total : ∀ a b, d.notAfter live a b || d.notAfter live b a :=
    fun _ _ => RouteRecord.isLE_cmp_total _ _
  refine (pairwise_mergeSort_stable trans total d.pairwise_joins).imp fun {a b} ⟨le, kept⟩ => ?_
  obtain lt | eq := Ordering.isLE_iff_eq_lt_or_eq_eq.mp le
  · exact .inl (RouteRecord.cmp_eq_lt_iff.mp lt)
  · have tied := RouteRecord.cmp_eq_eq_iff.mp eq
    have back : RouteRecord.cmp (d.record live b) (d.record live a) = .eq :=
      Std.OrientedCmp.eq_symm eq
    -- Tied records have one scheduler process, so that their keys must differ.
    have same : a.schedulerId = b.schedulerId := tied.scheduler
    obtain before | ⟨_, before⟩ := kept (by rw [notAfter, back]; rfl)
    · exact .inr ⟨tied, before⟩
    · simp [same] at before

/-- The records are those of the joins that the directories contain. Every join gives one record,
no join is left out or taken twice, and the records stand in order. -/
theorem collect_eq_join (external : ∀ id, (live.external id).Distinct)
    (internal : ∀ id, (live.internal id).Distinct) :
    ∃ joins : List Join, joins.Nodup ∧ (∀ j, j ∈ joins ↔ d.Holds j) ∧
      List.Forall₂ (Join.Gives d live) joins (d.collect live) ∧
      (joins.zip (d.collect live)).Pairwise Join.Ordered := by
  have perm := d.perm_ranked live
  refine ⟨d.ranked live, perm.nodup_iff.mpr d.nodup_joins, fun j => ?_, ?_, ?_⟩
  · rw [perm.mem_iff, mem_joins]
  · rw [collect_eq_map, List.forall₂_map_right_iff, List.forall₂_same]
    exact fun j _ => d.gives_record live external internal j
  · rw [collect_eq_map, ← List.map_prod_left_eq_zip, List.pairwise_map]
    exact d.pairwise_ranked live

/-- Two routes of one host name, a process that runs twice, and a mapping without a route. -/
theorem collect_eq_join_shop :
    let d : DesiredState :=
      ⟨.ofList [⟨"r-1", "Shop.Example", none, false, none⟩,
          ⟨"r-2", "shop.example", some "/db", true, none⟩],
        .ofList [⟨"r-1", "p-web", 40⟩, ⟨"r-2", "p-web", 1⟩, ⟨"r-3", "p-web", 60⟩],
        .ofList [⟨"p-web", .ofList ["s-1", "s-2"]⟩]⟩
    let i : Instance := ⟨"s-1", 0, .running, false, "10.0.0.1", none, [⟨8080, 9001⟩]⟩
    let live := ((Reconciler.init 2222).applyAll [.listing [i], .event (.created i)]).live
    (∀ id, (live.external id).Distinct) ∧ (∀ id, (live.internal id).Distinct) ∧
      (∃ j, d.Holds j) ∧
      ∃ joins : List Join, joins.Nodup ∧ (∀ j, j ∈ joins ↔ d.Holds j) ∧
        List.Forall₂ (Join.Gives d live) joins (d.collect live) ∧
        (joins.zip (d.collect live)).Pairwise Join.Ordered := by
  intro d i live
  obtain ⟨external, internal⟩ :=
    Reconciler.distinct_live 2222 [.listing [i], .event (.created i)]
  let j : Join := ⟨⟨"r-2", "p-web"⟩, ⟨"r-2", "p-web", 1⟩,
    ⟨"r-2", "shop.example", some "/db", true, none⟩, "s-2"⟩
  have held : d.Holds j := ⟨by decide, by decide, .ofList ["s-1", "s-2"], by decide,
    SortedSet.mem_ofList.mpr (by simp [j])⟩
  exact ⟨external, internal, ⟨j, held⟩, collect_eq_join d live external internal⟩

end DesiredState

end MeshControl
