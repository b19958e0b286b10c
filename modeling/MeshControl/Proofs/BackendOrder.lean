import Mathlib
import MeshControl.Proofs.Collector.Worlds
import MeshControl.Proofs.Pipeline

/-!
# Backends in another order

Backend sets keep the order in which backends were inserted, and a listing inserts the backends of
its instances in its own order. Records sort the backends that they show. So nothing of these orders
gets into the records, and a listing of the same instances in another order gives the publisher
nothing new.

## Main definitions

* `LiveBackends.Alike` — the same backends, perhaps in another order.
* `DesiredState.collect_congr` — they give the same records.
* `Instance.Agree` — instances that are reached alike listen alike.
* `BackendStore.perm_sets_ofListing` — a listing of such instances in another order.
* `EffectiveLog.Undisturbed` — nothing is kept over the next listing.
* `Pipeline.unchanged_of_perm_listing` — such a listing is not worth publishing.
-/

namespace MeshControl

/-! ## Records -/

/-- A set is sorted before it is shown. -/
theorem BackendSet.usable_congr {s t : BackendSet} (h : s.toList.Perm t.toList) :
    s.usable = t.usable := by
  have trans : ∀ a b c : Backend, (compare a b).isLE → (compare b c).isLE → (compare a c).isLE :=
    fun _ _ _ => Std.TransCmp.isLE_trans
  have antisymm : ∀ a b : Backend, (compare a b).isLE → (compare b a).isLE → a = b :=
    fun a b hab hba => Std.LawfulEqCmp.compare_eq_iff_eq.mp (Std.OrientedCmp.isLE_antisymm hab hba)
  have sorted := List.Perm.eq_of_pairwise (fun a b _ _ => antisymm a b)
    (List.pairwise_mergeSort trans isLE_total (s.toList.filter (·.port ≠ 0)))
    (List.pairwise_mergeSort trans isLE_total (t.toList.filter (·.port ≠ 0)))
    ((List.mergeSort_perm _ _).trans ((h.filter _).trans (List.mergeSort_perm _ _).symm))
  rw [usable, usable, sorted]

/-- The backend sets of two sources differ in their order alone. -/
structure LiveBackends.Alike (v w : LiveBackends) : Prop where
  external : ∀ id, (v.external id).toList.Perm (w.external id).toList
  internal : ∀ id, (v.internal id).toList.Perm (w.internal id).toList

theorem DesiredState.collect_congr (d : DesiredState) {v w : LiveBackends} (h : v.Alike w) :
    d.collect v = d.collect w := by
  have recordOf : d.recordOf v = d.recordOf w := by
    funext m r id
    unfold DesiredState.recordOf
    split_ifs
    · rw [BackendSet.usable_congr (h.internal id)]
    · rw [BackendSet.usable_congr (h.external id)]
  have recordsOf : d.recordsOf v = d.recordsOf w := by
    funext m
    rw [DesiredState.recordsOf, DesiredState.recordsOf, recordOf]
  rw [collect, collect, recordsOf]

/-! ## Listings -/

namespace Instance

/-- Instances of one process that serve requests at the same address and port outside the mesh do
so behind the same container port. -/
def Agree (ssh : UInt16) (instances : List Instance) : Prop :=
  ∀ i ∈ instances, ∀ j ∈ instances, i.isRoutable → j.isRoutable → i.processId = j.processId →
    ∀ a b, i.externalEndpoint ssh = some a → j.externalEndpoint ssh = some b → a.key = b.key →
      a.containerPort = b.containerPort

variable {ssh : UInt16} {i j : Instance} {a b : Backend}

theorem externalBackend_eq_some_iff :
    i.externalBackend ssh = some a ↔ i.isRoutable ∧ i.externalEndpoint ssh = some a := by
  simp [externalBackend]

/-- Inside the mesh an instance is reached at the port that it listens on. -/
theorem containerPort_of_internalEndpoint (h : i.internalEndpoint ssh = some a) :
    a.containerPort = a.port := by
  obtain ⟨address, -, h⟩ := Option.bind_eq_some_iff.mp h
  obtain ⟨p, -, h⟩ := Option.bind_eq_some_iff.mp h
  split_ifs at h
  rw [← Option.some.inj h]

theorem Agree.gained_eq {instances : List Instance} (agree : Agree ssh instances) {side : Side}
    (hi : i ∈ instances) (hj : j ∈ instances) (process : i.processId = j.processId)
    (ha : i.gained ssh side = some a) (hb : j.gained ssh side = some b) (key : a.key = b.key) :
    a = b := by
  have containerPort : a.containerPort = b.containerPort := by
    cases side with
    | external =>
      obtain ⟨routable, ha⟩ := externalBackend_eq_some_iff.mp ha
      obtain ⟨routable', hb⟩ := externalBackend_eq_some_iff.mp hb
      exact agree i hi j hj routable routable' process a b ha hb key
    | internal =>
      obtain ⟨_, -, ha⟩ := Option.bind_eq_some_iff.mp ha
      obtain ⟨_, -, hb⟩ := Option.bind_eq_some_iff.mp hb
      simp only [internalBackend, Option.ite_none_right_eq_some] at ha hb
      rw [containerPort_of_internalEndpoint ha.2, containerPort_of_internalEndpoint hb.2]
      exact congrArg Backend.Key.port key
  cases a
  cases b
  simp_all [Backend.key]

end Instance

namespace BackendStore

variable {ssh : UInt16} {instances instances' : List Instance}

theorem mem_changesAt_created {side : Side} {id : SchedulerId} {k : Backend.Key}
    {c : BackendSet.Change} (h : c ∈ changesAt ssh side id k (instances.map .created)) :
    ∃ i ∈ instances, i.processId = id ∧
      ∃ b, i.gained ssh side = some b ∧ b.key = k ∧ c = .add b := by
  obtain ⟨member, key⟩ := List.mem_filter.mp h
  rw [List.flatMap_map, List.mem_flatMap] at member
  obtain ⟨i, hi, member⟩ := member
  rw [InstanceEvent.changes, Instance.additions] at member
  split_ifs at member with process
  · obtain ⟨b, hb, rfl⟩ := List.mem_map.mp member
    exact ⟨i, hi, process, b, Option.mem_toList.mp hb, of_decide_eq_true key, rfl⟩
  · exact absurd member List.not_mem_nil

/-- What a listing adds at one key is one backend, as often as it is listed. -/
theorem changesAt_created_congr (perm : instances.Perm instances')
    (agree : Instance.Agree ssh instances) (side : Side) (id : SchedulerId) (k : Backend.Key) :
    changesAt ssh side id k (instances.map .created) =
      changesAt ssh side id k (instances'.map .created) := by
  have perm' : (changesAt ssh side id k (instances.map .created)).Perm
      (changesAt ssh side id k (instances'.map .created)) :=
    ((perm.map _).flatMap_right _).filter _
  have single : ∀ c ∈ changesAt ssh side id k (instances.map .created),
      ∀ c' ∈ changesAt ssh side id k (instances.map .created), c = c' := by
    intro c hc c' hc'
    obtain ⟨i, hi, process, b, gained, key, rfl⟩ := mem_changesAt_created hc
    obtain ⟨j, hj, process', b', gained', key', rfl⟩ := mem_changesAt_created hc'
    rw [agree.gained_eq hi hj (process.trans process'.symm) gained gained' (key.trans key'.symm)]
  refine List.Perm.eq_of_pairwise (fun _ _ _ _ same _ => same)
    (List.pairwise_of_forall_mem_list single) (List.pairwise_of_forall_mem_list ?_) perm'
  exact fun c hc c' hc' => single c (perm'.mem_iff.mpr hc) c' (perm'.mem_iff.mpr hc')

/-- A listing in another order leaves the same sets but for their order. -/
theorem perm_sets_ofListing (perm : instances.Perm instances')
    (agree : Instance.Agree ssh instances) (side : Side) (id : SchedulerId) :
    ((ofListing ssh instances).sets side id).toList.Perm
      ((ofListing ssh instances').sets side id).toList := by
  rw [ofListing_eq_replayAll, ofListing_eq_replayAll,
    (distinct_replayAll _ _ _ _).perm_iff (distinct_replayAll _ _ _ _)]
  intro k
  rw [get?_sets_replayAll, get?_sets_replayAll, changesAt_created_congr perm agree]

end BackendStore

/-! ## What came before -/

namespace EffectiveLog

/-- Where nothing but notices follows the announcement of a listing, there is no notice either. -/
def Undisturbed (past : List Update) : Prop :=
  ∀ before events, past = before ++ .listingStarted :: events.map .event → events = []

/-- The notices that are kept over the next listing are those since it was announced. -/
theorem exists_of_pending_eq_some {past : List Update} {events : List InstanceEvent}
    (h : (ofUpdates past).pending = some events) :
    ∃ before, past = before ++ .listingStarted :: events.map .event := by
  induction past using List.reverseRecOn generalizing events with
  | nil => cases h
  | append_singleton past u ih =>
    rw [ofUpdates_concat] at h
    cases u with
    | event e =>
      obtain ⟨events', pending, rfl⟩ := Option.map_eq_some_iff.mp h
      obtain ⟨before, rfl⟩ := ih pending
      exact ⟨before, by simp⟩
    | listingStarted =>
      obtain rfl : [] = events := Option.some.inj h
      exact ⟨past, rfl⟩
    | listing instances => cases h

theorem undisturbed_concat (past : List Update) {u : Update} (h : ∀ e, u ≠ .event e) :
    Undisturbed (past ++ [u]) := by
  intro before events split
  induction events using List.reverseRecOn with
  | nil => rfl
  | append_singleton events e _ =>
    rw [List.map_append, ← List.cons_append, ← List.append_assoc] at split
    exact absurd (List.singleton_inj.mp (List.append_inj' split rfl).2) (h e)

theorem Undisturbed.pending {past : List Update} (h : Undisturbed past) :
    (ofUpdates past).pending.getD [] = [] := by
  cases pending : (ofUpdates past).pending with
  | none => rfl
  | some events =>
    obtain ⟨before, split⟩ := exists_of_pending_eq_some pending
    exact h before events split

end EffectiveLog

namespace Reconciler

/-- After a listing that no notice overtook, the sets are those of the listing. -/
theorem sets_apply_listing (ssh : UInt16) {past : List Update}
    (undisturbed : EffectiveLog.Undisturbed past) (instances : List Instance) (side : Side)
    (id : SchedulerId) :
    (((init ssh).applyAll past).apply (.listing instances)).store.sets side id =
      (BackendStore.ofListing ssh instances).sets side id := by
  have history : ((init ssh).applyAll past).apply (.listing instances) =
      (init ssh).applyAll (past ++ [.listing instances]) := by
    rw [applyAll_append]
    rfl
  rw [history, sets_applyAll, EffectiveLog.ofUpdates_concat, EffectiveLog.sets, EffectiveLog.apply,
    undisturbed.pending, List.append_nil, BackendStore.ofListing_eq_replayAll]

/-- A second listing in another order leaves the same backends. -/
theorem alike_apply_listing (ssh : UInt16) {past : List Update}
    (undisturbed : EffectiveLog.Undisturbed past) {instances instances' : List Instance}
    (agree : Instance.Agree ssh instances) (perm : instances.Perm instances') :
    let r := ((init ssh).applyAll past).apply (.listing instances)
    r.live.Alike (r.apply (.listing instances')).live := by
  intro r
  have relisted : r.apply (.listing instances') =
      ((init ssh).applyAll (past ++ [.listing instances])).apply (.listing instances') := by
    rw [applyAll_append]
    rfl
  have undisturbed' : EffectiveLog.Undisturbed (past ++ [.listing instances]) :=
    EffectiveLog.undisturbed_concat past fun _ => nofun
  have sets : ∀ side id, (r.store.sets side id).toList.Perm
      ((r.apply (.listing instances')).store.sets side id).toList := by
    intro side id
    rw [relisted, sets_apply_listing ssh undisturbed, sets_apply_listing ssh undisturbed']
    exact BackendStore.perm_sets_ofListing perm agree side id
  exact ⟨sets .external, sets .internal⟩

end Reconciler

/-! ## Ticks -/

/-- The records depend on no order of backends. So after a tick that the sink did not refuse, a
listing of the same instances in another order leaves the publisher nothing to do, if the tick
showed the last listing, no notice came since that listing was announced, and instances that are
reached alike listen alike. -/
theorem Pipeline.unchanged_of_perm_listing :
    (∀ (d : DesiredState) (v w : LiveBackends), v.Alike w → d.collect v = d.collect w) ∧
    ∀ (p : Pipeline) (ssh : UInt16) (past : List Update) (instances instances' : List Instance),
      EffectiveLog.Undisturbed past →
      p.plane.backends = ((Reconciler.init ssh).applyAll past).apply (.listing instances) →
      ¬ p.tick.2.refused → Instance.Agree ssh instances → instances.Perm instances' →
      ∀ told, (p.tick.1.step told (.update (.listing instances'))).tick.2 = .unchanged := by
  refine ⟨fun d v w h => d.collect_congr h, ?_⟩
  intro p ssh past instances instances' undisturbed listed taken agree perm told
  let q := p.tick.1.step told (.update (.listing instances'))
  have alike : p.plane.backends.live.Alike q.plane.backends.live := by
    have relisted : q.plane.backends = p.plane.backends.apply (.listing instances') :=
      congrArg (·.apply (.listing instances')) p.backends_tick
    rw [relisted, listed]
    exact Reconciler.alike_apply_listing ssh undisturbed agree perm
  have stated : q.plane.desired = p.plane.desired := p.desired_tick
  have records : q.plane.records = p.plane.records := by
    rw [ControlPlane.records, stated]
    exact (p.plane.desired.collect_congr alike).symm
  refine tick_unchanged taken rfl ?_
  have inputs : q.inputs = { p.tick.1.inputs with records := q.plane.records } := rfl
  rw [inputs, p.inputs_tick, records]
  rfl

/-- Two instances behind one address and port, and another one, are listed the other way round. -/
theorem Pipeline.unchanged_of_perm_listing_shop :
    let first : Instance :=
      ⟨"s-1", 0, .running, false, "10.0.0.2", some "10.255.0.2", [⟨8080, 9001⟩]⟩
    let twin : Instance := { first with index := 1, instanceAddress := some "10.255.0.3" }
    let other : Instance :=
      { first with index := 2, address := "10.0.0.1", instanceAddress := none }
    let d : DesiredState :=
      ⟨.ofList [⟨"r-1", "shop.example", none, false, none⟩,
          ⟨"r-2", "db.apps.internal", none, true, some "127.1.1.3"⟩],
        .ofList [⟨"r-1", "p-web", 1⟩, ⟨"r-2", "p-web", 1⟩], .ofList [⟨"p-web", .ofList ["s-1"]⟩]⟩
    let past : List Update := [.event (.created other), .listingStarted]
    let r := ((Reconciler.init 2222).applyAll past).apply (.listing [first, twin, other])
    let r' := r.apply (.listing [other, twin, first])
    let p : Pipeline := ⟨.standard, "default", ⟨d, r, .empty⟩, .init, [], false, [], none, 0⟩
    r.live.external "s-1" ≠ r'.live.external "s-1" ∧ r.live.Alike r'.live ∧
      d.collect r.live = d.collect r'.live ∧
      EffectiveLog.Undisturbed past ∧ ¬ p.tick.2.refused ∧
      Instance.Agree 2222 [first, twin, other] ∧ [first, twin, other].Perm [other, twin, first] ∧
      (p.tick.1.step "default" (.update (.listing [other, twin, first]))).tick.2 = .unchanged := by
  intro first twin other d past r r' p
  have undisturbed : EffectiveLog.Undisturbed past :=
    EffectiveLog.undisturbed_concat [.event (.created other)] fun _ => nofun
  have agree : Instance.Agree 2222 [first, twin, other] := by
    have listens : ∀ i ∈ [first, twin, other], ∀ a ∈ i.externalEndpoint 2222,
        a.containerPort = 8080 := by decide
    intro i hi j hj _ _ _ a b ha hb _
    rw [listens i hi a ha, listens j hj b hb]
  have perm : [first, twin, other].Perm [other, twin, first] := by decide
  have taken : ¬ p.tick.2.refused := not_refused_tick rfl
  have alike : r.live.Alike r'.live :=
    Reconciler.alike_apply_listing 2222 undisturbed agree perm
  obtain ⟨records, quiet⟩ := unchanged_of_perm_listing
  exact ⟨by decide, alike, records d r.live r'.live alike, undisturbed, taken, agree, perm,
    quiet p 2222 past _ _ undisturbed rfl taken agree perm "default"⟩

end MeshControl
