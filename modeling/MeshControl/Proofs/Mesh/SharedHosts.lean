import Mathlib
import MeshControl.Proofs.Api.Resolution
import MeshControl.Proofs.Mesh.Isolation

/-!
# Host names on both sides

Resources are made host by host, and a host is a host name on one side of the mesh. So two
resources of a kind are for one host name as soon as it has routes on both sides, and never
otherwise. The internal domain has host names of one side only.

## Main definitions

* `Resource.IsFor`, `Resource.OnePerHostname` — no two resources are for one host name.
* `RouteRecord.OneSided` — no host name has records on both sides.
* `RouteRecord.ByHost` — a list with one resource for every host of some records.
* `Pipeline.onePerHostname_run` — when the lists of the three kinds have one for every host name.
-/

namespace MeshControl

namespace Resource

/-- The body of the resource is for the host name. -/
def IsFor (x : Resource) (hostname : String) : Prop :=
  ∃ name body, x = .ofBody name body ∧ hostname ∈ body.hostnames

/-- No two resources of the list are for one host name. -/
def OnePerHostname (resources : List Resource) : Prop :=
  resources.Pairwise fun x y => ∀ hostname, x.IsFor hostname → ¬ y.IsFor hostname

theorem isFor_ofBody {name hostname : String} {body : Body} :
    (ofBody name body).IsFor hostname ↔ hostname ∈ body.hostnames := by
  constructor
  · rintro ⟨_, _, same, member⟩
    obtain ⟨-, rfl⟩ := ofBody_inj.mp same
    exact member
  · exact fun member => ⟨name, body, rfl, member⟩

end Resource

namespace RouteRecord

open Resource (OnePerHostname)

/-- Records of one host name are on one side of the mesh. -/
def OneSided (records : List RouteRecord) : Prop :=
  ∀ r ∈ records, ∀ s ∈ records, r.hostname = s.hostname → r.internal = s.internal

variable {records : List RouteRecord}

theorem OneSided.filter (h : OneSided records) (p : RouteRecord → Bool) :
    OneSided (records.filter p) :=
  fun r hr s hs => h r (List.mem_of_mem_filter hr) s (List.mem_of_mem_filter hs)

theorem oneSided_filter (side : Bool) : OneSided (records.filter (·.internal = side)) := by
  have onSide : ∀ r ∈ records.filter (·.internal = side), r.internal = side :=
    fun r hr => of_decide_eq_true (List.mem_filter.mp hr).2
  exact fun r hr s hs _ => (onSide r hr).trans (onSide s hs).symm

/-! ## Lists by host -/

theorem mem_entries_byHost {e : MeshHost × List RouteRecord} (he : e ∈ (byHost records).entries) :
    ∃ r ∈ records, r.meshHost = e.1 := by
  obtain ⟨made, some⟩ := Table.mem_entries_group.mp he
  rw [made] at some
  exact ofHost_ne_nil_iff.mp some

theorem mem_byHost {r : RouteRecord} (hr : r ∈ records) :
    (r.meshHost, ofHost r.meshHost records) ∈ (byHost records).entries :=
  Table.mem_entries_group.mpr ⟨rfl, ofHost_ne_nil_iff.mpr ⟨r, hr, rfl⟩⟩

/-- The hosts have host names of their own if records of one host name are on one side, and only
then. -/
theorem pairwise_hostname_byHost : ((byHost records).entries.Pairwise fun e f =>
    e.1.hostname ≠ f.1.hostname) ↔ OneSided records := by
  constructor
  · intro distinct r hr s hs same
    by_contra sides
    have hosts : r.meshHost ≠ s.meshHost := fun equal => sides (congrArg MeshHost.internal equal)
    have symmetric : Std.Symm fun e f : MeshHost × List RouteRecord =>
        e.1.hostname ≠ f.1.hostname := ⟨fun _ _ => Ne.symm⟩
    have entries : (r.meshHost, ofHost r.meshHost records) ≠
        (s.meshHost, ofHost s.meshHost records) := fun equal => hosts (congrArg Prod.fst equal)
    exact distinct.forall (mem_byHost hr) (mem_byHost hs) entries same
  · intro oneSided
    refine (byHost records).increasing.imp_of_mem fun {e f} he hf before same => ?_
    obtain ⟨r, hr, own⟩ := mem_entries_byHost he
    obtain ⟨s, hs, own'⟩ := mem_entries_byHost hf
    rw [← own, ← own'] at before same
    have hosts : r.meshHost = s.meshHost :=
      congrArg₂ MeshHost.mk same (oneSided r hr s hs same)
    rw [hosts] at before
    simp at before

/-- The resources are a list by host, each for the host name of its host. -/
def ByHost (resources : List Resource) (records : List RouteRecord) : Prop :=
  ∃ (what : String) (body : MeshHost → List RouteRecord → Resource.Body),
    (∀ host g, (body host g).hostnames = [host.hostname]) ∧ resources = perHost what body records

namespace ByHost

variable {resources : List Resource}

/-- A list by host has one resource for a host name if the records of the host name are on one
side, and only then. -/
theorem onePerHostname_iff (h : ByHost resources records) :
    OnePerHostname resources ↔ OneSided records := by
  obtain ⟨what, body, names, rfl⟩ := h
  have isFor : ∀ (host : MeshHost) g hostname,
      (Resource.ofBody (host.resourceName what) (body host g)).IsFor hostname ↔
        hostname = host.hostname := by
    intro host g hostname
    rw [Resource.isFor_ofBody, names, List.mem_singleton]
  rw [← pairwise_hostname_byHost, OnePerHostname, perHost, List.pairwise_map]
  simp only [isFor, forall_eq, ne_eq]

theorem filter (h : ByHost resources records) (side : Bool) :
    ByHost (resources.filter (·.isInternal = side)) (records.filter (·.internal = side)) := by
  obtain ⟨what, body, names, rfl⟩ := h
  exact ⟨what, body, names, filter_perHost side⟩

/-- On each side of the mesh a list by host has one resource for a host name. -/
theorem onePerHostname_filter (h : ByHost resources records) (side : Bool) :
    OnePerHostname (resources.filter (·.isInternal = side)) :=
  (h.filter side).onePerHostname_iff.mpr (oneSided_filter side)

end ByHost

theorem byHost_virtualServices (ingress : Ingress) (records : List RouteRecord) :
    ByHost (virtualServices ingress records) records :=
  ⟨_, _, fun _ _ => rfl, virtualServices_eq_perHost ingress⟩

theorem byHost_destinationRules (records : List RouteRecord) :
    ByHost (destinationRules records) records :=
  ⟨_, _, fun _ _ => rfl, destinationRules_eq_perHost⟩

theorem byHost_serviceEntries (records : List RouteRecord) :
    ByHost (serviceEntries records) (records.filter hasBackends) :=
  ⟨_, _, fun _ _ => rfl, serviceEntries_eq_perHost⟩

end RouteRecord

/-! ## Host names of routes -/

namespace DesiredState

variable {d : DesiredState} {live : LiveBackends}

/-- Host names in the internal domain are on one side. -/
theorem internal_of_inInternalDomain {r : RouteRecord} (hr : r ∈ d.collect live)
    (inside : InInternalDomain r.hostname) : r.internal := by
  by_contra outside
  exact (exposes_of_mem_collect hr (Bool.eq_false_iff.mpr outside)).domain inside

/-- Host names of which the routes are on one side are on one side. -/
theorem Admitted.oneSided (h : d.Admitted) (agree : ∀ r ∈ d.routes.list, ∀ s ∈ d.routes.list,
    r.host = s.host → r.internal = s.internal) : RouteRecord.OneSided (d.collect live) := by
  intro r hr s hs same
  obtain ⟨x, hx, host, flag, -⟩ := h.exists_route hr
  obtain ⟨y, hy, host', flag', -⟩ := h.exists_route hs
  rw [← flag, ← flag']
  exact agree x hx y hy (by rw [host, host', same])

/-- The scheduler process of a join has a backend on the side of the route. -/
structure HoldsLive (d : DesiredState) (live : LiveBackends) (j : Join) : Prop where
  holds : d.Holds j
  backends : ¬ (live.ofSide j.route.isInternal j.schedulerId).usable.isEmpty

theorem HoldsLive.record_mem {j : Join} (h : d.HoldsLive live j) :
    d.record live j ∈ (d.collect live).filter RouteRecord.hasBackends := by
  have backends : (d.record live j).hasBackends := by
    rw [RouteRecord.hasBackends, backends_record, Bool.not_eq_true']
    exact Bool.eq_false_iff.mpr h.backends
  exact List.mem_filter.mpr ⟨mem_collect.mpr ⟨j, h.holds, rfl⟩, backends⟩

/-- A host name with routes on both sides that have backends is on both sides. -/
theorem not_oneSided_of_holdsLive {i j : Join} (hi : d.HoldsLive live i) (hj : d.HoldsLive live j)
    (same : i.route.hostname = j.route.hostname)
    (sides : i.route.isInternal ≠ j.route.isInternal) :
    ¬ RouteRecord.OneSided ((d.collect live).filter RouteRecord.hasBackends) :=
  fun oneSided => sides (oneSided _ hi.record_mem _ hj.record_mem same)

end DesiredState

/-! ## What may be published -/

namespace Pipeline

open Resource (OnePerHostname)
open RouteRecord

/-- Two resources are for one host name if records of it are on both sides of the mesh, with
backends in the case of service entries, and only then. On each side there is one of every kind.
The records of a host name are on one side if its routes are, or if it is in the internal domain. -/
theorem onePerHostname_run {start : Pipeline} (fresh : start.Fresh) (told : NodeId)
    (steps : List Step) :
    let p := start.run told steps
    let records := p.plane.records
    let routes := p.plane.desired.routes.list
    (OnePerHostname (virtualServices p.ingress records) ↔ OneSided records) ∧
    (OnePerHostname (destinationRules records) ↔ OneSided records) ∧
    (OnePerHostname (serviceEntries records) ↔ OneSided (records.filter hasBackends)) ∧
    (∀ side, OnePerHostname ((virtualServices p.ingress records).filter (·.isInternal = side)) ∧
      OnePerHostname ((destinationRules records).filter (·.isInternal = side)) ∧
      OnePerHostname ((serviceEntries records).filter (·.isInternal = side))) ∧
    ((∀ r ∈ routes, ∀ s ∈ routes, r.host = s.host → r.internal = s.internal) →
      OneSided records ∧ OneSided (records.filter hasBackends)) ∧
    ∀ r ∈ records, InInternalDomain r.hostname → r.internal := by
  intro p records routes
  have sound := fresh.sound.run told steps
  have services := byHost_virtualServices p.ingress records
  have rules := byHost_destinationRules records
  have entries := byHost_serviceEntries records
  refine ⟨services.onePerHostname_iff, rules.onePerHostname_iff, entries.onePerHostname_iff,
    fun side => ⟨services.onePerHostname_filter side, rules.onePerHostname_filter side,
      entries.onePerHostname_filter side⟩, fun agree => ?_, fun r hr => ?_⟩
  · have oneSided : OneSided records := sound.admitted.oneSided agree
    exact ⟨oneSided, oneSided.filter _⟩
  · exact DesiredState.internal_of_inInternalDomain hr

set_option maxRecDepth 4000 in
/-- Two routes of one host name, both internal. -/
theorem onePerHostname_run_twoRoutes :
    let p := blank.run "default" (twoRoutesSteps "127.1.1.3" "127.2.2.3")
    blank.Fresh ∧ OnePerHostname (virtualServices p.ingress p.plane.records) ∧
      OnePerHostname (destinationRules p.plane.records) ∧
      OnePerHostname (serviceEntries p.plane.records) ∧
      ∃ e, (⟨"db.apps.internal", true⟩ : MeshHost).serviceEntry e ∈
        serviceEntries p.plane.records := by
  intro p
  have stated : p.plane.desired = twoRoutes "127.1.1.3" "127.2.2.3" := by decide +kernel
  obtain ⟨services, rules, entries, -, agreeing, -⟩ :=
    onePerHostname_run fresh_blank "default" (twoRoutesSteps "127.1.1.3" "127.2.2.3")
  obtain ⟨oneSided, live⟩ := agreeing (by rw [stated]; decide)
  refine ⟨fresh_blank, services.mpr oneSided, rules.mpr oneSided, entries.mpr live, ?_⟩
  obtain ⟨r, hr, -⟩ := exists_of_address?_eq_some (address?_twoRoutes "127.1.1.3" "127.2.2.3")
  refine ⟨_, mem_serviceEntries.mpr ⟨List.ne_nil_of_mem (a := r) ?_, rfl⟩⟩
  rw [ControlPlane.records, stated, backends_twoRoutesSteps]
  exact hr

/-! ## A host name on both sides -/

/-- Two routes of one host name, of which one is internal. -/
def bothSides : DesiredState :=
  ⟨.ofList [⟨"shop", "shop.example", none, false, none⟩,
      ⟨"shop-inside", "shop.example", none, true, some "127.2.2.3"⟩],
    .ofList [⟨"shop", "p-1", 1⟩, ⟨"shop-inside", "p-1", 1⟩], .ofList [⟨"p-1", .ofList ["s-1"]⟩]⟩

def postBothSides : Api.Request where
  method := "POST"
  path := "/api/v1/sync"
  contentType := some "application/json"
  body := Utf8.encode <|
    "[[[\"shop\",\"shop.example\",null,false,null]," ++
      "[\"shop-inside\",\"shop.example\",null,true,\"127.2.2.3\"]]," ++
      "[[\"shop\",\"p-1\",1],[\"shop-inside\",\"p-1\",1]],[[\"p-1\",[\"s-1\"]]]]"

theorem not_oneSided_bothSides : ¬ OneSided
    ((bothSides.collect ((Reconciler.init 2222).apply appearance).live).filter hasBackends) := by
  let outer : Join := ⟨⟨"shop", "p-1"⟩, ⟨"shop", "p-1", 1⟩,
    ⟨"shop", "shop.example", none, false, none⟩, "s-1"⟩
  let inner : Join := ⟨⟨"shop-inside", "p-1"⟩, ⟨"shop-inside", "p-1", 1⟩,
    ⟨"shop-inside", "shop.example", none, true, some "127.2.2.3"⟩, "s-1"⟩
  have outerHeld : bothSides.Holds outer :=
    ⟨by decide, by decide, .ofList ["s-1"], by decide, SortedSet.mem_ofList.mpr (by simp [outer])⟩
  have innerHeld : bothSides.Holds inner :=
    ⟨by decide, by decide, .ofList ["s-1"], by decide, SortedSet.mem_ofList.mpr (by simp [inner])⟩
  exact DesiredState.not_oneSided_of_holdsLive ⟨outerHeld, by decide +kernel⟩
    ⟨innerHeld, by decide +kernel⟩ rfl (by decide)

set_option maxRecDepth 4000 in
/-- The two routes give two resources of every kind for their host name. -/
theorem not_onePerHostname_bothSides :
    let p := blank.run "default" [.request postBothSides, .update appearance]
    blank.Fresh ∧ ¬ OnePerHostname (virtualServices p.ingress p.plane.records) ∧
      ¬ OnePerHostname (destinationRules p.plane.records) ∧
      ¬ OnePerHostname (serviceEntries p.plane.records) := by
  intro p
  have stated : p.plane.desired = bothSides := by decide +kernel
  have backends : p.plane.backends = (Reconciler.init 2222).apply appearance :=
    congrArg (·.apply appearance) (Api.backends_respond "default" blank.plane postBothSides)
  have live : ¬ OneSided (p.plane.records.filter hasBackends) := by
    rw [ControlPlane.records, stated, backends]
    exact not_oneSided_bothSides
  have all : ¬ OneSided p.plane.records := fun oneSided => live (oneSided.filter _)
  rw [(byHost_virtualServices _ _).onePerHostname_iff,
    (byHost_destinationRules _).onePerHostname_iff, (byHost_serviceEntries _).onePerHostname_iff]
  exact ⟨fresh_blank, all, all, live⟩

end Pipeline

end MeshControl
