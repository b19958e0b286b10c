import MeshControl.Mesh.Configuration
import MeshControl.Proofs.Codecs

/-!
# Bodies read back

The bodies of resources are read back from what was written of them, whatever fields are left out.
So every resource that is made of records, certificates and policy edges is read as a body of its
kind, and written again as it was.

## Main statements

* `Gateway.lawful`, `VirtualService.lawful`, `DestinationRule.lawful`, `ServiceEntry.lawful`,
  `Sidecar.lawful` — the bodies of each kind.
* `Resource.Body.ofJson_toJson` — bodies of any kind.
* `MeshInputs.read_back` — everything that is written.
-/

namespace MeshControl

open Json

/-! ## Shared parts -/

theorem Labels.lawful : Lawful Labels.toJson Labels.ofJson := lawful_string.asTable

theorem Port.lawful : Lawful Port.toJson Port.ofJson where
  back := by
    rintro ⟨number, protocol, name⟩
    refine record_object (by decide) rfl fun names => ?_
    refine Checked.seq_eq_ok (Checked.seq_eq_ok (Checked.map_eq_ok _ ?_) ?_) ?_
    · exact lawful_word.required names (by simp)
    · exact lawful_string.required names (by simp)
    · exact lawful_string.required names (by simp)
  plain p := .object (by simp [lawful_word.plain, lawful_string.plain])
  notNull := nofun

/-! ## Gateways -/

namespace Gateway

theorem TlsMode.lawful : Lawful TlsMode.toJson TlsMode.ofJson where
  back m := by cases m; rfl
  plain m := by cases m; exact .string _
  notNull m := by cases m; nofun

theorem Tls.lawful : Lawful Tls.toJson Tls.ofJson where
  back := by
    rintro ⟨mode, serverCertificate, privateKey⟩
    refine record_object (by decide) rfl fun names => ?_
    refine Checked.seq_eq_ok (Checked.seq_eq_ok (Checked.map_eq_ok _ ?_) ?_) ?_
    · exact TlsMode.lawful.required names (by simp)
    · exact lawful_string.required names (by simp)
    · exact lawful_string.required names (by simp)
  plain t := .object (by simp [TlsMode.lawful.plain, lawful_string.plain])
  notNull := nofun

theorem Server.lawful : Lawful Server.toJson Server.ofJson where
  back := by
    rintro ⟨port, hosts, tls⟩
    refine record_present (by decide) rfl fun names => ?_
    refine Checked.seq_eq_ok (Checked.seq_eq_ok (Checked.map_eq_ok _ ?_) ?_) ?_
    · exact Port.lawful.required_present names (by simp)
    · exact lawful_string.asList.required_present names (by simp)
    · exact Tls.lawful.optional_present names (by simp)
  plain s := plain_present (by simp [Port.lawful.plain, lawful_string.asList.plain,
    Tls.lawful.plain])
  notNull := nofun

theorem lawful : Lawful toJson ofJson where
  back := by
    rintro ⟨servers⟩
    refine record_object (by decide) rfl fun names => ?_
    exact Checked.map_eq_ok _ (Server.lawful.asList.required names (by simp))
  plain g := .object (by simp [Server.lawful.asList.plain])
  notNull := nofun

end Gateway

/-! ## Virtual services -/

namespace VirtualService

theorem PathMatch.lawful : Lawful PathMatch.toJson PathMatch.ofJson where
  back := by
    rintro ⟨text⟩
    refine record_object (by decide) rfl fun names => ?_
    exact Checked.map_eq_ok _ ((lawful_string.asTagged "prefix").required names (by simp))
  plain := by
    rintro ⟨text⟩
    exact .object (by simp [(lawful_string.asTagged "prefix").plain])
  notNull := by
    rintro ⟨text⟩
    nofun

theorem Target.lawful_port : Lawful portToJson portOfJson where
  back number := by
    refine record_object (by decide) rfl fun names => ?_
    exact lawful_word.required names (by simp)
  plain number := .object (by simp [lawful_word.plain])
  notNull := nofun

theorem Target.lawful : Lawful Target.toJson Target.ofJson where
  back := by
    rintro ⟨host, subset, port⟩
    refine record_present (by decide) rfl fun names => ?_
    refine Checked.seq_eq_ok (Checked.seq_eq_ok (Checked.map_eq_ok _ ?_) ?_) ?_
    · exact lawful_string.required_present names (by simp)
    · exact lawful_string.required_present names (by simp)
    · exact Target.lawful_port.optional_present names (by simp)
  plain t := plain_present (by simp [lawful_string.plain, Target.lawful_port.plain])
  notNull := nofun

theorem Destination.lawful : Lawful Destination.toJson Destination.ofJson where
  back := by
    rintro ⟨target, weight⟩
    refine record_object (by decide) rfl fun names => ?_
    refine Checked.seq_eq_ok (Checked.map_eq_ok _ ?_) ?_
    · exact Target.lawful.required names (by simp)
    · exact lawful_word.required names (by simp)
  plain d := .object (by simp [Target.lawful.plain, lawful_word.plain])
  notNull := nofun

theorem Retries.lawful : Lawful Retries.toJson Retries.ofJson where
  back := by
    rintro ⟨attempts, retryOn⟩
    refine record_object (by decide) rfl fun names => ?_
    refine Checked.seq_eq_ok (Checked.map_eq_ok _ ?_) ?_
    · exact lawful_word.required names (by simp)
    · exact lawful_string.required names (by simp)
  plain x := .object (by simp [lawful_word.plain, lawful_string.plain])
  notNull := nofun

theorem Rule.lawful : Lawful Rule.toJson Rule.ofJson where
  back := by
    rintro ⟨conditions, destinations, retries, timeout⟩
    refine record_present (by decide) rfl fun names => ?_
    refine Checked.seq_eq_ok (Checked.seq_eq_ok (Checked.seq_eq_ok
      (Checked.map_eq_ok _ ?_) ?_) ?_) ?_
    · exact PathMatch.lawful.unlessEmpty_present names (by simp)
    · exact Destination.lawful.asList.required_present names (by simp)
    · exact Retries.lawful.optional_present names (by simp)
    · exact lawful_string.optional_present names (by simp)
  plain x := plain_present (by
    simpa [Destination.lawful.asList.plain, Retries.lawful.plain, lawful_string.plain]
      using PathMatch.lawful.plain_unlessEmpty x.conditions)
  notNull := nofun

theorem lawful : Lawful toJson ofJson where
  back := by
    rintro ⟨hosts, gateways, rules⟩
    refine record_present (by decide) rfl fun names => ?_
    refine Checked.seq_eq_ok (Checked.seq_eq_ok (Checked.map_eq_ok _ ?_) ?_) ?_
    · exact lawful_string.asList.required_present names (by simp)
    · exact lawful_string.unlessEmpty_present names (by simp)
    · exact Rule.lawful.asList.required_present names (by simp)
  plain s := plain_present (by
    simpa [lawful_string.asList.plain, Rule.lawful.asList.plain]
      using lawful_string.plain_unlessEmpty s.gateways)
  notNull := nofun

end VirtualService

/-! ## Destination rules -/

namespace DestinationRule

theorem Subset.lawful : Lawful Subset.toJson Subset.ofJson where
  back := by
    rintro ⟨name, labels⟩
    refine record_object (by decide) rfl fun names => ?_
    refine Checked.seq_eq_ok (Checked.map_eq_ok _ ?_) ?_
    · exact lawful_string.required names (by simp)
    · exact Labels.lawful.required names (by simp)
  plain s := .object (by simp [lawful_string.plain, Labels.lawful.plain])
  notNull := nofun

theorem lawful : Lawful toJson ofJson where
  back := by
    rintro ⟨host, subsets⟩
    refine record_object (by decide) rfl fun names => ?_
    refine Checked.seq_eq_ok (Checked.map_eq_ok _ ?_) ?_
    · exact lawful_string.required names (by simp)
    · exact Subset.lawful.asList.required names (by simp)
  plain x := .object (by simp [lawful_string.plain, Subset.lawful.asList.plain])
  notNull := nofun

end DestinationRule

/-! ## Service entries -/

namespace ServiceEntry

theorem Location.lawful : Lawful Location.toJson Location.ofJson where
  back l := by cases l; rfl
  plain l := by cases l; exact .string _
  notNull l := by cases l; nofun

theorem Resolution.lawful : Lawful Resolution.toJson Resolution.ofJson where
  back r := by cases r; rfl
  plain r := by cases r; exact .string _
  notNull r := by cases r; nofun

theorem Endpoint.lawful : Lawful Endpoint.toJson Endpoint.ofJson where
  back := by
    rintro ⟨address, ports, labels⟩
    refine record_object (by decide) rfl fun names => ?_
    refine Checked.seq_eq_ok (Checked.seq_eq_ok (Checked.map_eq_ok _ ?_) ?_) ?_
    · exact lawful_string.required names (by simp)
    · exact lawful_word.asTable.required names (by simp)
    · exact Labels.lawful.required names (by simp)
  plain e := .object (by simp [lawful_string.plain, lawful_word.asTable.plain,
    Labels.lawful.plain])
  notNull := nofun

theorem lawful : Lawful toJson ofJson where
  back := by
    rintro ⟨hosts, addresses, ports, location, resolution, endpoints⟩
    refine record_present (by decide) rfl fun names => ?_
    refine Checked.seq_eq_ok (Checked.seq_eq_ok (Checked.seq_eq_ok (Checked.seq_eq_ok
      (Checked.seq_eq_ok (Checked.map_eq_ok _ ?_) ?_) ?_) ?_) ?_) ?_
    · exact lawful_string.asList.required_present names (by simp)
    · exact lawful_string.unlessEmpty_present names (by simp)
    · exact Port.lawful.asList.required_present names (by simp)
    · exact Location.lawful.required_present names (by simp)
    · exact Resolution.lawful.required_present names (by simp)
    · exact Endpoint.lawful.asList.required_present names (by simp)
  plain s := plain_present (by
    simpa [lawful_string.asList.plain, Port.lawful.asList.plain, Location.lawful.plain,
      Resolution.lawful.plain, Endpoint.lawful.asList.plain]
      using lawful_string.plain_unlessEmpty s.addresses)
  notNull := nofun

end ServiceEntry

/-! ## Sidecars -/

namespace Sidecar

theorem lawful_selector : Lawful selectorToJson selectorOfJson where
  back labels := by
    refine record_object (by decide) rfl fun names => ?_
    exact Labels.lawful.required names (by simp)
  plain labels := .object (by simp [Labels.lawful.plain])
  notNull := nofun

theorem lawful_listener : Lawful listenerToJson listenerOfJson where
  back hosts := by
    refine record_object (by decide) rfl fun names => ?_
    exact lawful_string.asList.required names (by simp)
  plain hosts := .object (by simp [lawful_string.asList.plain])
  notNull := nofun

theorem lawful : Lawful toJson ofJson where
  back := by
    rintro ⟨selector, egress⟩
    refine record_present (by decide) rfl fun names => ?_
    refine Checked.seq_eq_ok (Checked.map_eq_ok _ ?_) ?_
    · exact lawful_selector.optional_present names (by simp)
    · exact lawful_listener.asList.required_present names (by simp)
  plain s := plain_present (by simp [lawful_selector.plain, lawful_listener.asList.plain])
  notNull := nofun

end Sidecar

/-! ## Bodies of any kind -/

theorem Resource.Body.ofJson_toJson (b : Resource.Body) : ofJson b.kind b.toJson = .ok b := by
  cases b with
  | gateway g => exact congrArg (gateway <$> ·) (Gateway.lawful.back g)
  | virtualService s => exact congrArg (virtualService <$> ·) (VirtualService.lawful.back s)
  | destinationRule r => exact congrArg (destinationRule <$> ·) (DestinationRule.lawful.back r)
  | serviceEntry e => exact congrArg (serviceEntry <$> ·) (ServiceEntry.lawful.back e)
  | sidecar s => exact congrArg (sidecar <$> ·) (Sidecar.lawful.back s)

/-- Every resource that is made has a body of its kind. -/
theorem MeshInputs.exists_ofBody (i : MeshInputs) {kind : ResourceKind} {made : List Resource}
    (h : i.resources? kind = some made) {r : Resource} (member : r ∈ made) :
    ∃ b : Resource.Body, b.kind = kind ∧ b.toJson = r.body := by
  cases kind with
  | gateway =>
    obtain ⟨certificates, -, rfl⟩ := Option.map_eq_some_iff.mp h
    obtain rfl := List.mem_singleton.mp member
    exact ⟨.gateway _, rfl, rfl⟩
  | virtualService =>
    obtain rfl := Option.some.inj h
    obtain ⟨e, -, rfl⟩ := List.mem_map.mp member
    exact ⟨.virtualService _, rfl, rfl⟩
  | destinationRule =>
    obtain rfl := Option.some.inj h
    obtain ⟨e, -, rfl⟩ := List.mem_map.mp member
    exact ⟨.destinationRule _, rfl, rfl⟩
  | serviceEntry =>
    obtain rfl := Option.some.inj h
    obtain ⟨e, -, rfl⟩ := List.mem_map.mp member
    exact ⟨.serviceEntry _, rfl, rfl⟩
  | sidecar =>
    obtain rfl := Option.some.inj h
    obtain ⟨e, -, rfl⟩ := List.mem_map.mp member
    exact ⟨.sidecar _, rfl, rfl⟩

/-- Everything that is written is read back, as a value and as a text, and what was read once is not
changed by reading and writing it again. Every resource that is made is read as a body of its kind,
and that body is written as the resource has it. -/
theorem MeshInputs.read_back :
    (RoundTrips Route.toJson Route.ofJson ∧
      RoundTrips RouteMapping.toJson RouteMapping.ofJson ∧
      RoundTrips Association.toJson Association.ofJson ∧
      RoundTrips Backend.toJson Backend.ofJson ∧
      RoundTrips Instance.toJson Instance.ofJson ∧
      RoundTrips InstanceEvent.toJson InstanceEvent.ofJson ∧
      RoundTrips Certificate.toJson Certificate.ofJson ∧
      RoundTrips PolicyEdge.toJson PolicyEdge.ofJson) ∧
    (RoundTrips Gateway.toJson Gateway.ofJson ∧
      RoundTrips VirtualService.toJson VirtualService.ofJson ∧
      RoundTrips DestinationRule.toJson DestinationRule.ofJson ∧
      RoundTrips ServiceEntry.toJson ServiceEntry.ofJson ∧
      RoundTrips Sidecar.toJson Sidecar.ofJson) ∧
    ∀ i : MeshInputs, ∀ made ∈ i.configuration, ∀ r ∈ made.2,
      ∃ b, Resource.Body.ofJson made.1 r.body = .ok b ∧ b.toJson = r.body := by
  refine ⟨⟨Route.lawful.roundTrips, RouteMapping.lawful.roundTrips, Association.lawful.roundTrips,
    Backend.lawful.roundTrips, Instance.lawful.roundTrips, InstanceEvent.lawful.roundTrips,
    Certificate.lawful.roundTrips, PolicyEdge.lawful.roundTrips⟩,
    ⟨Gateway.lawful.roundTrips, VirtualService.lawful.roundTrips,
      DestinationRule.lawful.roundTrips, ServiceEntry.lawful.roundTrips,
      Sidecar.lawful.roundTrips⟩, ?_⟩
  intro i made member r hr
  obtain ⟨kind, -, found⟩ := List.mem_filterMap.mp member
  obtain ⟨resources, given, rfl⟩ := Option.map_eq_some_iff.mp found
  obtain ⟨b, rfl, written⟩ := i.exists_ofBody given hr
  exact ⟨b, written ▸ b.ofJson_toJson, written⟩

end MeshControl
