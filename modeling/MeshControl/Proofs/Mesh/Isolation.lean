import Mathlib
import MeshControl.Proofs.Collector.Worlds

/-!
# The two sides of the mesh

Nothing that is made for callers outside is for a host name that is internal, whether its routes
say so or its domain does. The backends of one side have no influence on what is made for the
other, and sidecars depend on no backends at all.

## Main definitions

* `InInternalDomain`, `DesiredState.Exposes` — which host names may be seen from outside.
* `Resource.Discreet` — a resource that is seen from outside is for such host names only.
* `MeshInputs.ofSide` — the resources of one side of the mesh.
* `World.isolated` — resources are discreet, and the sides do not influence each other.
-/

namespace MeshControl

/-- The host name ends in the internal domain, in letters of any case. -/
def InInternalDomain (hostname : String) : Prop :=
  ∃ name domain, hostname = name ++ domain ∧ Text.lower domain = internalDomain

/-- Some route of the host name is not marked internal, and its domain is not internal either. -/
structure DesiredState.Exposes (d : DesiredState) (hostname : String) : Prop where
  route : ∃ id r, d.routes.get? id = some r ∧ r.hostname = hostname ∧ r.internal = false
  domain : ¬ InInternalDomain hostname

namespace Resource

/-- The host names that a resource is for. Gateways and sidecars are not made for host names. -/
def Body.hostnames : Body → List String
  | virtualService s => s.hosts
  | destinationRule r => [r.host]
  | serviceEntry e => e.hosts
  | gateway _ | sidecar _ => []

/-- The gateways through which requests reach a resource. -/
def Body.gateways : Body → List String
  | virtualService s => s.gateways
  | gateway _ | destinationRule _ | serviceEntry _ | sidecar _ => []

/-- If the resource names a gateway or does not have an internal name, its host names may be
seen from outside. -/
def Discreet (d : DesiredState) (x : Resource) : Prop :=
  ∃ name body, x = .ofBody name body ∧
    (body.gateways ≠ [] ∨ ¬ x.isInternal → ∀ hostname ∈ body.hostnames, d.Exposes hostname)

end Resource

/-- The resources of a kind that are made for one side of the mesh. -/
def MeshInputs.ofSide (i : MeshInputs) (side : Bool) (kind : ResourceKind) :
    Option (List Resource) :=
  (i.resources? kind).map (·.filter (·.isInternal = side))

/-! ## Host names -/

theorem hasSuffix_of_inInternalDomain {hostname : String} (h : InInternalDomain hostname) :
    Text.hasSuffix internalDomain (Text.lower hostname) := by
  obtain ⟨name, domain, rfl, same⟩ := h
  rw [Text.hasSuffix, List.isSuffixOf_iff_suffix, ← same]
  simp

theorem Route.exposed {r : Route} (outside : r.isInternal = false) :
    r.internal = false ∧ ¬ InInternalDomain r.hostname := by
  obtain ⟨unmarked, domain⟩ := Bool.or_eq_false_iff.mp outside
  refine ⟨unmarked, fun inside => ?_⟩
  have suffix := hasSuffix_of_inInternalDomain inside
  rw [Route.hostname, Text.lower_lower, ← Route.hostname, domain] at suffix
  exact Bool.false_ne_true suffix

/-- A record for callers outside comes from a route that may be seen there. -/
theorem DesiredState.exposes_of_mem_collect {d : DesiredState} {live : LiveBackends}
    {r : RouteRecord} (hr : r ∈ d.collect live) (outside : r.internal = false) :
    d.Exposes r.hostname := by
  obtain ⟨j, held, rfl⟩ := mem_collect.mp hr
  obtain ⟨unmarked, domain⟩ := Route.exposed (r := j.route) outside
  exact ⟨⟨_, j.route, held.route, rfl, unmarked⟩, domain⟩

/-! ## Discreet resources -/

namespace Resource

variable {d : DesiredState} {x : Resource}

/-- Resources by host are discreet if those of internal hosts name no gateway. -/
theorem discreet_of_mem_perHost {what : String} {body : MeshHost → List RouteRecord → Body}
    {records : List RouteRecord} (names : ∀ host g, (body host g).hostnames = [host.hostname])
    (gateways : ∀ host g, host.internal → (body host g).gateways = [])
    (exposed : ∀ r ∈ records, r.internal = false → d.Exposes r.hostname)
    (hx : x ∈ RouteRecord.perHost what body records) : x.Discreet d := by
  obtain ⟨host, some, rfl⟩ := RouteRecord.mem_perHost.mp hx
  refine ⟨_, _, rfl, fun seen hostname hh => ?_⟩
  have outside : host.internal = false := by
    rw [Resource.isInternal, Resource.ofBody, MeshHost.hasPrefix_resourceName] at seen
    obtain gate | outside := seen
    · exact Bool.eq_false_iff.mpr fun inside => gate (gateways host _ inside)
    · exact Bool.eq_false_iff.mpr outside
  obtain ⟨r, member, same⟩ := RouteRecord.ofHost_ne_nil_iff.mp some
  rw [names, List.mem_singleton] at hh
  subst same hh
  exact exposed r member outside

end Resource

namespace World

variable {v w : World} {ingress : Ingress}

theorem discreet {kind : ResourceKind} {resources : List Resource}
    (made : (w.inputs ingress).resources? kind = some resources) :
    ∀ x ∈ resources, x.Discreet w.desired := by
  have exposed : ∀ r ∈ w.records, r.internal = false → w.desired.Exposes r.hostname :=
    fun r hr => DesiredState.exposes_of_mem_collect hr
  intro x hx
  cases kind with
  | gateway =>
    obtain ⟨certificates, -, rfl⟩ := Option.map_eq_some_iff.mp made
    obtain rfl := List.mem_singleton.mp hx
    exact ⟨_, _, rfl, fun _ _ => nofun⟩
  | virtualService =>
    obtain rfl := Option.some.inj made
    rw [RouteRecord.virtualServices_eq_perHost] at hx
    refine Resource.discreet_of_mem_perHost (fun _ _ => rfl) (fun _ _ inside => ?_) exposed hx
    exact if_pos inside
  | destinationRule =>
    obtain rfl := Option.some.inj made
    rw [RouteRecord.destinationRules_eq_perHost] at hx
    exact Resource.discreet_of_mem_perHost (fun _ _ => rfl) (fun _ _ _ => rfl) exposed hx
  | serviceEntry =>
    obtain rfl := Option.some.inj made
    rw [RouteRecord.serviceEntries_eq_perHost] at hx
    exact Resource.discreet_of_mem_perHost (fun _ _ => rfl) (fun _ _ _ => rfl)
      (fun r hr => exposed r (List.mem_of_mem_filter hr)) hx
  | sidecar =>
    obtain rfl := Option.some.inj made
    obtain ⟨e, -, rfl⟩ := List.mem_map.mp hx
    exact ⟨_, _, rfl, fun _ _ => nofun⟩

/-! ## One side at a time -/

theorem resources?_sidecar_congr (desired : v.desired = w.desired)
    (certificates : v.certificates = w.certificates) (policies : v.policies = w.policies) :
    (v.inputs ingress).resources? .sidecar = (w.inputs ingress).resources? .sidecar := by
  have records : v.records.map (·.withoutBackends) = w.records.map (·.withoutBackends) := by
    rw [World.records, World.records, desired, DesiredState.map_withoutBackends_collect]
  exact resources?_eq_of_map ingress certificates policies records fun _ => rfl

theorem ofSide_congr {side : Bool} (desired : v.desired = w.desired)
    (certificates : v.certificates = w.certificates) (policies : v.policies = w.policies)
    (backends : v.live.ofSide side = w.live.ofSide side) (kind : ResourceKind) :
    (v.inputs ingress).ofSide side kind = (w.inputs ingress).ofSide side kind := by
  have records : v.records.filter (·.internal = side) = w.records.filter (·.internal = side) := by
    rw [World.records, World.records, desired, DesiredState.filter_collect_congr backends]
  unfold MeshInputs.ofSide
  cases kind with
  | gateway => simp only [MeshInputs.resources?, inputs, certificates]
  | virtualService =>
    simp only [MeshInputs.resources?, inputs, Option.map_some,
      RouteRecord.virtualServices_eq_perHost, RouteRecord.filter_perHost, records]
  | destinationRule =>
    simp only [MeshInputs.resources?, inputs, Option.map_some,
      RouteRecord.destinationRules_eq_perHost, RouteRecord.filter_perHost, records]
  | serviceEntry =>
    have live : ∀ records : List RouteRecord,
        (records.filter RouteRecord.hasBackends).filter (·.internal = side) =
          (records.filter (·.internal = side)).filter RouteRecord.hasBackends :=
      fun _ => List.filter_comm ..
    simp only [MeshInputs.resources?, inputs, Option.map_some,
      RouteRecord.serviceEntries_eq_perHost, RouteRecord.filter_perHost, live, records]
  | sidecar => rw [resources?_sidecar_congr desired certificates policies]

/-- What is seen from outside is for host names that may be seen there. The backends inside do not
change what is made for the outside, nor those outside what is made for the inside, and none change
the sidecars. -/
theorem isolated (ingress : Ingress) (d : DesiredState)
    (certificates : Option (List Certificate)) (policies : List PolicyEdge) :
    let world (external internal : SchedulerId → BackendSet) : World :=
      ⟨d, ⟨external, internal⟩, certificates, policies⟩
    (∀ external internal kind resources,
      ((world external internal).inputs ingress).resources? kind = some resources →
        ∀ x ∈ resources, x.Discreet d) ∧
    (∀ external internal internal' kind,
      ((world external internal).inputs ingress).ofSide false kind =
        ((world external internal').inputs ingress).ofSide false kind) ∧
    (∀ external external' internal kind,
      ((world external internal).inputs ingress).ofSide true kind =
        ((world external' internal).inputs ingress).ofSide true kind) ∧
    ∀ external external' internal internal',
      ((world external internal).inputs ingress).resources? .sidecar =
        ((world external' internal').inputs ingress).resources? .sidecar := by
  intro world
  refine ⟨fun external internal _ _ => discreet (w := world external internal), ?_, ?_, ?_⟩
  · intro external internal internal' kind
    exact ofSide_congr (v := world external internal) (w := world external internal')
      rfl rfl rfl rfl kind
  · intro external external' internal kind
    exact ofSide_congr (v := world external internal) (w := world external' internal)
      rfl rfl rfl rfl kind
  · intro external external' internal internal'
    exact resources?_sidecar_congr (v := world external internal)
      (w := world external' internal') rfl rfl rfl

/-- One route for callers outside, and one whose domain is internal in mixed letters. -/
theorem isolated_shop :
    let d : DesiredState :=
      ⟨.ofList [⟨"r-1", "Shop.Example", none, false, none⟩,
          ⟨"r-2", "DB.Apps.INTERNAL", some "/x", false, none⟩],
        .ofList [⟨"r-1", "p-web", 1⟩, ⟨"r-2", "p-db", 1⟩],
        .ofList [⟨"p-web", .ofList ["s-1"]⟩, ⟨"p-db", .ofList ["s-1", "s-2"]⟩]⟩
    let backends : SchedulerId → BackendSet := fun _ => .ofList [⟨"10.0.0.1", 9001, 8080⟩]
    let inputs (internal : SchedulerId → BackendSet) : MeshInputs :=
      inputs ⟨d, ⟨backends, internal⟩, none, []⟩ .standard
    (inputs backends).ofSide false .virtualService =
        (inputs fun _ => ∅).ofSide false .virtualService ∧
      ∃ resources, (inputs backends).resources? .virtualService = some resources ∧
        ∃ x ∈ resources, ¬ x.isInternal ∧ x.Discreet d := by
  intro d backends inputs
  obtain ⟨discreet, outside, -, -⟩ := isolated .standard d none []
  let shop : MeshHost := ⟨"shop.example", false⟩
  let j : Join := ⟨⟨"r-1", "p-web"⟩, ⟨"r-1", "p-web", 1⟩,
    ⟨"r-1", "shop.example", none, false, none⟩, "s-1"⟩
  have held : d.Holds j :=
    ⟨by decide, by decide, .ofList ["s-1"], by decide, SortedSet.mem_ofList.mpr (by simp [j])⟩
  have record : d.record ⟨backends, backends⟩ j ∈ (inputs backends).records :=
    DesiredState.mem_collect.mpr ⟨j, held, rfl⟩
  have served : d.record ⟨backends, backends⟩ j ∈
      RouteRecord.ofHost shop (inputs backends).records :=
    RouteRecord.mem_ofHost.mpr ⟨record, by decide⟩
  have service : shop.virtualService _ ∈ RouteRecord.virtualServices .standard _ :=
    RouteRecord.mem_virtualServices.mpr ⟨List.ne_nil_of_mem served, rfl⟩
  refine ⟨outside backends backends (fun _ => ∅) .virtualService, _, rfl, _, service, ?_, ?_⟩
  · rw [MeshHost.virtualService, Resource.isInternal, Resource.ofBody,
      MeshHost.hasPrefix_resourceName]
    simp [shop]
  · exact discreet backends backends .virtualService _ rfl _ service

end World

end MeshControl
