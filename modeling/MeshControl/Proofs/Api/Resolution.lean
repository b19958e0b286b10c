import Mathlib
import MeshControl.Proofs.Api.Requests
import MeshControl.Proofs.Collector.Worlds
import MeshControl.Proofs.Mesh.Contents
import MeshControl.Proofs.Pipeline

/-!
# Resolving host names

The address of an internal host name is chosen twice: the service entry declares the one of the
first record of the host with live backends, and callers are told the one of the first route with
the host name, in the order of the ids. Both are addresses of stored routes, so they are the same
if the routes of a host name agree on their address, and need not be the same otherwise.

## Main definitions

* `Pipeline.Declares` — the published service entry of an internal host name declares an address.
* `Api.respond_getVip` — what callers are told.
* `Pipeline.declared_answered` — how the two are related.
-/

namespace MeshControl

/-! ## Declared addresses -/

theorem RouteRecord.sort_pair {a b : RouteRecord} (h : cmp a b = .gt) : sort [a, b] = [b, a] := by
  simp [sort, List.mergeSort, h]

theorem RouteRecord.exists_of_address?_eq_some {records : List RouteRecord} {v : String}
    (h : address? records = some v) : ∃ r ∈ records, r.internal ∧ r.vip = some v := by
  obtain ⟨r, hr, found⟩ := List.exists_of_findSome?_eq_some h
  split_ifs at found with internal
  exact ⟨r, hr, internal, found⟩

/-- A stored route is marked internal if its records are. -/
theorem Route.Admitted.isInternal_eq {r : Route} (h : r.Admitted) : r.isInternal = r.internal := by
  cases internal : r.isInternal with
  | true => exact (h.internal_and_vip internal).1.symm
  | false => exact (Bool.or_eq_false_iff.mp internal).1.symm

/-- An internal route is stored with the address that its records have. -/
theorem Route.Admitted.address?_eq {r : Route} (h : r.Admitted) (internal : r.isInternal) :
    r.address? = r.vip := by
  obtain ⟨v, own⟩ := Option.isSome_iff_exists.mp (h.internal_and_vip internal).2
  rw [address?, if_pos internal, own, Option.getD_some]

/-- A record is for the host name of a stored route, on its side, and at its address inside. -/
theorem DesiredState.Admitted.exists_route {d : DesiredState} (h : d.Admitted)
    {live : LiveBackends} {r : RouteRecord} (hr : r ∈ d.collect live) :
    ∃ s ∈ d.routes.list, s.host = r.hostname ∧ s.internal = r.internal ∧
      (r.internal → s.vip = r.vip) := by
  obtain ⟨j, held, rfl⟩ := mem_collect.mp hr
  have stored : j.route ∈ d.routes.list := Route.Directory.mem_list.mpr ⟨_, held.route⟩
  have admitted := h.route stored
  exact ⟨j.route, stored, admitted.lower.lower_eq.symm, admitted.isInternal_eq.symm,
    fun internal => (admitted.address?_eq internal).symm⟩

namespace Pipeline

/-- The published service entry of an internal host name declares an address. -/
def Declares (p : Pipeline) (hostname address : String) : Prop :=
  ∃ s k e, p.plane.snapshots.get? p.node = some s ∧ s.get? .serviceEntry = some k ∧
    (⟨hostname, true⟩ : MeshHost).serviceEntry e ∈ k.resources ∧ address ∈ e.addresses

variable {p : Pipeline} {hostname v : String}

/-- After a tick that the sink does not refuse, the declared address is that of the first record
with live backends. -/
theorem Sound.declares_tick_iff (h : p.Sound) (taken : ¬ p.tick.2.refused) :
    p.tick.1.Declares hostname v ↔ RouteRecord.address? (RouteRecord.ofHost ⟨hostname, true⟩
      (p.plane.records.filter RouteRecord.hasBackends)) = some v := by
  obtain ⟨s, shown, made⟩ := h.resources_after_tick taken
  have entries := made .serviceEntry _ rfl
  obtain ⟨k, found, resources⟩ := Option.map_eq_some_iff.mp entries
  constructor
  · rintro ⟨s', k', e, shown', found', member, declared⟩
    rw [node_tick] at shown'
    obtain rfl : s = s' := Option.some.inj (shown.symm.trans shown')
    obtain rfl : k = k' := Option.some.inj (found.symm.trans found')
    rw [resources] at member
    obtain ⟨-, rfl⟩ := RouteRecord.mem_serviceEntries.mp member
    exact Option.mem_toList.mp declared
  · intro address
    obtain ⟨r, hr, -⟩ := RouteRecord.exists_of_address?_eq_some address
    have member := RouteRecord.mem_serviceEntries.mpr ⟨List.ne_nil_of_mem hr, rfl⟩
    exact ⟨s, k, _, by rwa [node_tick], found, resources ▸ member, Option.mem_toList.mpr address⟩

/-- A declared address is that of a stored internal route with the host name. -/
theorem Sound.exists_route_of_declares (h : p.Sound) (taken : ¬ p.tick.2.refused)
    (declares : p.tick.1.Declares hostname v) :
    ∃ r ∈ p.plane.desired.routes.list, r.host = hostname ∧ r.internal ∧ r.vip = some v := by
  rw [h.declares_tick_iff taken] at declares
  obtain ⟨r, hr, internal, address⟩ := RouteRecord.exists_of_address?_eq_some declares
  obtain ⟨member, host⟩ := RouteRecord.mem_ofHost.mp hr
  obtain ⟨s, stored, same, flag, vip⟩ := h.admitted.exists_route (List.mem_filter.mp member).1
  exact ⟨s, stored, same.trans (congrArg MeshHost.hostname host), flag.trans internal,
    (vip internal).trans address⟩

end Pipeline

/-! ## Answers -/

namespace Api

variable {told : NodeId} {c : ControlPlane} {q : Request} {hostname : String}

/-- Callers who ask for the address of a host name are told the one that the routes give. -/
theorem respond_getVip (asks : Action.ofRequest q = .ok (.getVip hostname))
    (get : q.method = "GET") : (respond told c q).2 =
      match c.desired.routes.vipOf? hostname with
      | some v => .success (vipView hostname v)
      | none => .ofRefusal (.notFound s!"vip for {hostname}") := by
  rw [respond_of_asks asks (by rw [get]; decide)]
  simp only [perform, Action.changes, read]
  cases c.desired.routes.vipOf? hostname with
  | none => rfl
  | some v => rfl

theorem respond_getVip_eq_iff (asks : Action.ofRequest q = .ok (.getVip hostname))
    (get : q.method = "GET") {w : String} :
    (respond told c q).2 = .success (vipView hostname w) ↔
      c.desired.routes.vipOf? hostname = some w := by
  rw [respond_getVip asks get]
  cases c.desired.routes.vipOf? hostname with
  | none => simp [Response.success, Response.ofRefusal, Refusal.status]
  | some v => simp [Response.success, vipView]

theorem backends_respond (told : NodeId) (c : ControlPlane) (q : Request) :
    (respond told c q).1.backends = c.backends := by
  obtain ⟨e, -, effect⟩ := exists_edits_respond told c q
  rw [effect]

end Api

namespace Pipeline

/-! ## Two routes of one host name -/

/-- Two internal routes of one host name, of which the one with the greater id has a path. -/
def twoRoutes (v w : String) : DesiredState :=
  ⟨.ofList [⟨"db", "db.apps.internal", none, true, some v⟩,
      ⟨"db-api", "db.apps.internal", some "/api", true, some w⟩],
    .ofList [⟨"db", "p-1", 1⟩, ⟨"db-api", "p-1", 1⟩], .ofList [⟨"p-1", .ofList ["s-1"]⟩]⟩

/-- A backend appears for the two routes. -/
def appearance : Update :=
  .event (.created ⟨"s-1", 0, .running, false, "10.0.0.1", some "10.255.0.1", [⟨8080, 9001⟩]⟩)

def postTwoRoutes (v w : String) : Api.Request where
  method := "POST"
  path := "/api/v1/sync"
  contentType := some "application/json"
  body := Utf8.encode <|
    s!"[[[\"db\",\"db.apps.internal\",null,true,\"{v}\"]," ++
      s!"[\"db-api\",\"db.apps.internal\",\"/api\",true,\"{w}\"]]," ++
      "[[\"db\",\"p-1\",1],[\"db-api\",\"p-1\",1]],[[\"p-1\",[\"s-1\"]]]]"

def askForVip : Api.Request := ⟨"GET", "/api/v1/vips/db.apps.internal", none, []⟩

/-- Nothing is stated, and the sink takes everything. -/
def blank : Pipeline := ⟨.standard, "default", .init 2222, .init, [], false, [], none, 0⟩

theorem fresh_blank : blank.Fresh := ⟨rfl, rfl⟩

/-- Two routes are stated, and a backend appears for them. -/
def twoRoutesSteps (v w : String) : List Step := [.request (postTwoRoutes v w), .update appearance]

theorem askForVip_asks : Api.Action.ofRequest askForVip = .ok (.getVip "db.apps.internal") := by
  rfl

/-- The record of the route with the path comes first. -/
theorem address?_twoRoutes (v w : String) :
    RouteRecord.address? (RouteRecord.ofHost ⟨"db.apps.internal", true⟩
      (((twoRoutes v w).collect ((Reconciler.init 2222).apply appearance).live).filter
        RouteRecord.hasBackends)) = some w := by
  let live := ((Reconciler.init 2222).apply appearance).live
  let dbRoute : Route := ⟨"db", "db.apps.internal", none, true, some v⟩
  let apiRoute : Route := ⟨"db-api", "db.apps.internal", some "/api", true, some w⟩
  let db : RouteRecord := (twoRoutes v w).recordOf live ⟨"db", "p-1", 1⟩ dbRoute "s-1"
  let api : RouteRecord := (twoRoutes v w).recordOf live ⟨"db-api", "p-1", 1⟩ apiRoute "s-1"
  have dbStored : (twoRoutes v w).routes.get? "db" = some dbRoute := by cbv
  have apiStored : (twoRoutes v w).routes.get? "db-api" = some apiRoute := by cbv
  have associated : (twoRoutes v w).associations.get? "p-1" = some (.ofList ["s-1"]) := rfl
  have mapped : (twoRoutes v w).mappings.list = [⟨"db", "p-1", 1⟩, ⟨"db-api", "p-1", 1⟩] := rfl
  have joined :
      (twoRoutes v w).mappings.list.flatMap ((twoRoutes v w).recordsOf live) = [db, api] := by
    rw [mapped]
    simp only [List.flatMap_cons, List.flatMap_nil, DesiredState.recordsOf, dbStored, apiStored,
      associated]
    rfl
  have order : RouteRecord.cmp db api = .gt := by
    have hosts : compare db.hostname api.hostname = .eq := Std.ReflCmp.compare_self
    have paths : comparePaths db.path api.path = .gt := rfl
    rw [RouteRecord.cmp, hosts, paths]
    rfl
  have sorted : (twoRoutes v w).collect live = [api, db] := by
    rw [DesiredState.collect, joined, RouteRecord.sort_pair order]
  have backends : api.hasBackends := by
    have set : live.internal "s-1" = .ofList [⟨"10.255.0.1", 8080, 8080⟩] := by decide
    have usable : api.backends = (live.internal "s-1").usable := rfl
    rw [RouteRecord.hasBackends, usable, set]
    cbv
  have lower : Text.lower "db.apps.internal" = "db.apps.internal" := by decide
  have member : api.meshHost = ⟨"db.apps.internal", true⟩ := congrArg (MeshHost.mk · true) lower
  have address : (if api.internal then api.vip else none) = some w := rfl
  rw [sorted, List.filter_cons_of_pos backends, RouteRecord.ofHost, Table.having,
    List.filter_cons_of_pos (by simp [member]), RouteRecord.address?, List.findSome?_cons, address]

theorem backends_twoRoutesSteps (v w : String) :
    (blank.run "default" (twoRoutesSteps v w)).plane.backends =
      (Reconciler.init 2222).apply appearance :=
  congrArg (·.apply appearance) (Api.backends_respond "default" blank.plane (postTwoRoutes v w))

theorem declares_twoRoutes {v w : String}
    (stated : (blank.run "default" (twoRoutesSteps v w)).plane.desired = twoRoutes v w) :
    (blank.run "default" (twoRoutesSteps v w)).tick.1.Declares "db.apps.internal" w := by
  have sound := fresh_blank.sound.run "default" (twoRoutesSteps v w)
  rw [sound.declares_tick_iff (not_refused_tick rfl), ControlPlane.records, stated,
    backends_twoRoutesSteps]
  exact address?_twoRoutes v w

/-! ## What is declared and what is answered -/

open Route.Directory (lookupName)

/-- The address that is declared for an internal host name after a tick is that of a stored internal
route with the host name. Callers who ask for the host name then are told the address of the first
stored route, in the order of the ids, that has the host name as it is looked up, and an address. So
they are told what is declared if all routes of the host name agree, and they are told something if
the host name has no points at its end. -/
theorem declared_answered {start : Pipeline} (fresh : start.Fresh) (told : NodeId)
    (steps : List Step) (taken : ¬ (start.run told steps).tick.2.refused) {hostname v : String}
    (declares : (start.run told steps).tick.1.Declares hostname v) {q : Api.Request}
    (asks : Api.Action.ofRequest q = .ok (.getVip hostname)) (get : q.method = "GET") :
    let c := (start.run told steps).tick.1.plane
    let routes := c.desired.routes.list
    let answer := (Api.respond told c q).2
    (∃ r ∈ routes, r.host = hostname ∧ r.internal ∧ r.vip = some v) ∧
    (∀ w, answer = .success (Api.vipView hostname w) ↔
      (routes.filter (·.host = lookupName hostname)).findSome? (·.vip) = some w) ∧
    ((∀ r ∈ routes, ∀ s ∈ routes, r.internal → r.host = hostname →
        s.host = lookupName hostname → s.vip.isSome → r.vip = s.vip) →
      ∀ w, answer = .success (Api.vipView hostname w) → v = w) ∧
    (lookupName hostname = hostname → ∃ w, answer = .success (Api.vipView hostname w)) := by
  intro c routes answer
  have sound := fresh.sound.run told steps
  have indexed : c.desired.routes.Indexed := sound.tick.admitted.indexed
  obtain ⟨r, stored, host, internal, vip⟩ := sound.exists_route_of_declares taken declares
  rw [← desired_tick] at stored
  have told_iff : ∀ w, answer = .success (Api.vipView hostname w) ↔
      (routes.filter (·.host = lookupName hostname)).findSome? (·.vip) = some w := by
    intro w
    rw [← indexed.vipOf?_eq_findSome?]
    exact Api.respond_getVip_eq_iff asks get
  refine ⟨⟨r, stored, host, internal, vip⟩, told_iff, fun agree w answered => ?_, fun plain => ?_⟩
  · obtain ⟨s, member, vip'⟩ := List.exists_of_findSome?_eq_some ((told_iff w).mp answered)
    obtain ⟨stored', host'⟩ := List.mem_filter.mp member
    have same := agree r stored s stored' internal host (of_decide_eq_true host')
      (Option.isSome_of_eq_some vip')
    rw [vip, vip'] at same
    exact Option.some.inj same
  · have member : r ∈ routes.filter (·.host = lookupName hostname) :=
      List.mem_filter.mpr ⟨stored, decide_eq_true (host.trans plain.symm)⟩
    have answered := List.findSome?_isSome_iff.mpr ⟨r, member, Option.isSome_of_eq_some vip⟩
    obtain ⟨w, found⟩ := Option.isSome_iff_exists.mp answered
    exact ⟨w, (told_iff w).mpr found⟩

set_option maxRecDepth 4000 in
/-- Both routes have one address. -/
theorem declared_answered_alike :
    let p := blank.run "default" (twoRoutesSteps "127.1.1.3" "127.1.1.3")
    blank.Fresh ∧ ¬ p.tick.2.refused ∧ p.tick.1.Declares "db.apps.internal" "127.1.1.3" ∧
      Api.Action.ofRequest askForVip = .ok (.getVip "db.apps.internal") ∧ askForVip.method = "GET" ∧
      ∃ w, (Api.respond "default" p.tick.1.plane askForVip).2 =
        .success (Api.vipView "db.apps.internal" w) ∧ "127.1.1.3" = w := by
  intro p
  have stated : p.plane.desired = twoRoutes "127.1.1.3" "127.1.1.3" := by decide +kernel
  have taken : ¬ p.tick.2.refused := not_refused_tick rfl
  have declares : p.tick.1.Declares "db.apps.internal" "127.1.1.3" := declares_twoRoutes stated
  obtain ⟨-, -, same, told⟩ :=
    declared_answered fresh_blank "default" (twoRoutesSteps _ _) taken declares askForVip_asks rfl
  obtain ⟨w, answered⟩ := told (by decide)
  refine ⟨fresh_blank, taken, declares, askForVip_asks, rfl, w, answered, same ?_ w answered⟩
  have stated' : p.tick.1.plane.desired = twoRoutes "127.1.1.3" "127.1.1.3" :=
    p.desired_tick.trans stated
  rw [stated']
  decide

set_option maxRecDepth 4000 in
/-- Callers are told the address of one route, while that of the other is declared. -/
theorem declared_not_answered :
    let p := blank.run "default" (twoRoutesSteps "127.1.1.3" "127.2.2.3")
    blank.Fresh ∧ ¬ p.tick.2.refused ∧ p.tick.1.Declares "db.apps.internal" "127.2.2.3" ∧
      (Api.respond "default" p.tick.1.plane askForVip).2 =
        .success (Api.vipView "db.apps.internal" "127.1.1.3") := by
  intro p
  have stated : p.plane.desired = twoRoutes "127.1.1.3" "127.2.2.3" := by decide +kernel
  have stated' : p.tick.1.plane.desired = twoRoutes "127.1.1.3" "127.2.2.3" :=
    p.desired_tick.trans stated
  refine ⟨fresh_blank, not_refused_tick rfl, declares_twoRoutes stated, ?_⟩
  rw [Api.respond_getVip_eq_iff askForVip_asks rfl, stated']
  decide

end Pipeline

end MeshControl
