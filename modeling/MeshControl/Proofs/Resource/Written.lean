import Mathlib
import MeshControl.Resource.Body

/-!
# Written bodies

The written form of a body determines the body, and its kind with it. So what is said about the
resources of the mesh can be said about the bodies that they were written from.

## Main statements

* `Json.present_injective` — members that are left out can be told from those that are there.
* `Resource.Body.toJson_injective` — no two bodies are written alike.
-/

namespace MeshControl

open Function (Injective)

namespace Json

@[simp] theorem ofNat_inj {m n : Nat} : ofNat m = ofNat n ↔ m = n := by
  simp [ofNat]

theorem unlessEmpty_injective : Injective unlessEmpty := by
  intro a b h
  cases a <;> cases b <;> simp_all [unlessEmpty]

variable {α : Type} {f : α → Json}

theorem map_inj (h : Injective f) {l l' : List α} : l.map f = l'.map f ↔ l = l' :=
  (List.map_injective_iff.mpr h).eq_iff

theorem map_string_inj {l l' : List String} : l.map Json.string = l'.map Json.string ↔ l = l' :=
  map_inj fun _ _ => Json.string.inj

theorem optional_inj (h : Injective f) {a b : Option α} : a.map f = b.map f ↔ a = b :=
  (Option.map_injective h).eq_iff

/-- A table is read off the object of its entries. -/
theorem object_injective (h : Injective f) :
    Injective fun t : Table String α => Json.object (t.entries.map fun e => (e.1, f e.2)) := by
  intro s t same
  have members : Injective fun e : String × α => (e.1, f e.2) := by
    rintro ⟨k, a⟩ ⟨l, b⟩ e
    exact Prod.ext (Prod.mk.inj e).1 (h (Prod.mk.inj e).2)
  have entries : s.entries = t.entries := List.map_injective_iff.mpr members (object.inj same)
  cases s
  cases t
  simpa using entries

theorem mem_names_of_mem_present {members : List (String × Option Json)} {m : String × Json}
    (h : m ∈ present members) : m.1 ∈ members.map (·.1) := by
  obtain ⟨⟨name, value⟩, hm, hv⟩ := List.mem_filterMap.mp h
  obtain ⟨v, -, rfl⟩ := Option.map_eq_some_iff.mp hv
  exact List.mem_map_of_mem hm

/-- Members with different names are determined by those of them that are there. -/
theorem present_injective (names : List String) (distinct : names.Nodup)
    {ms ns : List (String × Option Json)} (hm : ms.map (·.1) = names) (hn : ns.map (·.1) = names)
    (same : present ms = present ns) : ms = ns := by
  induction names generalizing ms ns with
  | nil => rw [List.map_eq_nil_iff.mp hm, List.map_eq_nil_iff.mp hn]
  | cons name names ih =>
    obtain ⟨fresh, others⟩ := List.nodup_cons.mp distinct
    obtain ⟨⟨_, v⟩, ms, rfl, rfl, hms⟩ := List.map_eq_cons_iff.mp hm
    obtain ⟨⟨name, w⟩, ns, rfl, rfl, hns⟩ := List.map_eq_cons_iff.mp hn
    -- A member that only one list has cannot come from the rest of the other list.
    cases v with
    | none =>
      cases w with
      | none => rw [ih others hms hns same]
      | some y =>
        have there : (name, y) ∈ present ms := same ▸ List.mem_cons_self
        exact absurd (hms ▸ mem_names_of_mem_present there) fresh
    | some x =>
      cases w with
      | none =>
        have there : (name, x) ∈ present ns := same ▸ List.mem_cons_self
        exact absurd (hns ▸ mem_names_of_mem_present there) fresh
      | some y =>
        obtain ⟨head, tail⟩ := List.cons.inj same
        rw [ih others hms hns tail, (Prod.mk.inj head).2]

theorem present_concat (ms : List (String × Option Json)) (name : String) (v : Json) :
    present (ms ++ [(name, some v)]) = present ms ++ [(name, v)] := by
  simp [present]

end Json

/-! ## Parts -/

theorem Labels.toJson_injective : Injective Labels.toJson :=
  Json.object_injective fun _ _ => Json.string.inj

theorem Port.toJson_injective : Injective Port.toJson := by
  rintro ⟨number, protocol, name⟩ ⟨number', protocol', name'⟩ h
  simpa [toJson, UInt32.toNat_inj] using h

/-! ## Gateways -/

namespace Gateway

theorem Tls.toJson_injective : Injective Tls.toJson := by
  rintro ⟨⟨⟩, certificate, key⟩ ⟨⟨⟩, certificate', key'⟩ h
  simpa [toJson] using h

theorem Server.toJson_injective : Injective Server.toJson := by
  rintro ⟨port, hosts, tls⟩ ⟨port', hosts', tls'⟩ h
  have same := Json.present_injective ["port", "hosts", "tls"] (by decide) rfl rfl
    (Json.object.inj h)
  simpa [Port.toJson_injective.eq_iff, Json.map_string_inj,
    Json.optional_inj Tls.toJson_injective] using same

theorem toJson_injective : Injective toJson := by
  rintro ⟨servers⟩ ⟨servers'⟩ h
  simpa [toJson, Json.map_inj Server.toJson_injective] using h

end Gateway

/-! ## Virtual services -/

namespace VirtualService

theorem PathMatch.toJson_injective : Injective PathMatch.toJson := by
  rintro ⟨text⟩ ⟨text'⟩ h
  simpa [toJson] using h

theorem Target.portToJson_injective : Injective Target.portToJson := by
  intro number number' h
  simpa [portToJson, UInt32.toNat_inj] using h

theorem Target.toJson_injective : Injective Target.toJson := by
  rintro ⟨host, subset, port⟩ ⟨host', subset', port'⟩ h
  have same := Json.present_injective ["host", "subset", "port"] (by decide) rfl rfl
    (Json.object.inj h)
  simpa [Json.optional_inj portToJson_injective] using same

theorem Destination.toJson_injective : Injective Destination.toJson := by
  rintro ⟨target, weight⟩ ⟨target', weight'⟩ h
  simpa [toJson, Target.toJson_injective.eq_iff, UInt32.toNat_inj] using h

theorem Retries.toJson_injective : Injective Retries.toJson := by
  rintro ⟨attempts, retryOn⟩ ⟨attempts', retryOn'⟩ h
  simpa [toJson, UInt32.toNat_inj] using h

theorem Rule.toJson_injective : Injective Rule.toJson := by
  rintro ⟨conditions, destinations, retries, timeout⟩
    ⟨conditions', destinations', retries', timeout'⟩ h
  have same := Json.present_injective ["match", "route", "retries", "timeout"] (by decide) rfl rfl
    (Json.object.inj h)
  simpa [Json.unlessEmpty_injective.eq_iff, Json.map_inj PathMatch.toJson_injective,
    Json.map_inj Destination.toJson_injective, Json.optional_inj Retries.toJson_injective,
    Json.optional_inj fun _ _ => Json.string.inj] using same

theorem toJson_injective : Injective toJson := by
  rintro ⟨hosts, gateways, rules⟩ ⟨hosts', gateways', rules'⟩ h
  have same := Json.present_injective ["hosts", "gateways", "http"] (by decide) rfl rfl
    (Json.object.inj h)
  simpa [Json.unlessEmpty_injective.eq_iff, Json.map_string_inj,
    Json.map_inj Rule.toJson_injective] using same

end VirtualService

/-! ## Destination rules -/

namespace DestinationRule

theorem Subset.toJson_injective : Injective Subset.toJson := by
  rintro ⟨name, labels⟩ ⟨name', labels'⟩ h
  simpa [toJson, Labels.toJson_injective.eq_iff] using h

theorem toJson_injective : Injective toJson := by
  rintro ⟨host, subsets⟩ ⟨host', subsets'⟩ h
  simpa [toJson, Json.map_inj Subset.toJson_injective] using h

end DestinationRule

/-! ## Service entries -/

namespace ServiceEntry

theorem Endpoint.toJson_injective : Injective Endpoint.toJson := by
  rintro ⟨address, ports, labels⟩ ⟨address', ports', labels'⟩ h
  have numbers : Injective fun number : UInt32 => Json.ofNat number.toNat := by
    intro number number' same
    simpa [UInt32.toNat_inj] using same
  simp only [toJson, Json.object.injEq, List.cons.injEq, Prod.mk.injEq, Json.string.injEq,
    true_and, and_true, Labels.toJson_injective.eq_iff] at h
  rw [h.1, h.2.2, Json.object_injective numbers (congrArg Json.object h.2.1)]

theorem toJson_injective : Injective toJson := by
  rintro ⟨hosts, addresses, ports, ⟨⟩, ⟨⟩, endpoints⟩
    ⟨hosts', addresses', ports', ⟨⟩, ⟨⟩, endpoints'⟩ h
  have same := Json.present_injective
    ["hosts", "addresses", "ports", "location", "resolution", "endpoints"] (by decide) rfl rfl
    (Json.object.inj h)
  simpa [Json.unlessEmpty_injective.eq_iff, Json.map_string_inj,
    Json.map_inj Port.toJson_injective, Json.map_inj Endpoint.toJson_injective] using same

end ServiceEntry

/-! ## Sidecars -/

namespace Sidecar

theorem selectorToJson_injective : Injective selectorToJson := by
  intro labels labels' h
  simpa [selectorToJson, Labels.toJson_injective.eq_iff] using h

theorem listenerToJson_injective : Injective listenerToJson := by
  intro hosts hosts' h
  simpa [listenerToJson, Json.map_string_inj] using h

theorem toJson_injective : Injective toJson := by
  rintro ⟨selector, egress⟩ ⟨selector', egress'⟩ h
  have same := Json.present_injective ["workloadSelector", "egress"] (by decide) rfl rfl
    (Json.object.inj h)
  simpa [Json.optional_inj selectorToJson_injective,
    Json.map_inj listenerToJson_injective] using same

end Sidecar

/-! ## Bodies -/

namespace Resource

namespace Body

/-- The name of the member that stands last in the bodies of a kind. -/
def lastMember : ResourceKind → String
  | .gateway => "servers"
  | .virtualService => "http"
  | .destinationRule => "subsets"
  | .serviceEntry => "endpoints"
  | .sidecar => "egress"

theorem lastMember_injective : Injective lastMember := by
  intro k k' h
  cases k <;> cases k' <;> first | rfl | simp [lastMember] at h

theorem exists_members (b : Body) :
    ∃ members v, b.toJson = .object (members ++ [(lastMember b.kind, v)]) := by
  cases b with
  | gateway g => exact ⟨[], _, rfl⟩
  | virtualService s =>
    exact ⟨_, _, congrArg _ (Json.present_concat [("hosts", _), ("gateways", _)] "http" _)⟩
  | destinationRule r => exact ⟨[_], _, rfl⟩
  | serviceEntry e =>
    exact ⟨_, _, congrArg _ (Json.present_concat [_, _, _, _, _] "endpoints" _)⟩
  | sidecar s => exact ⟨_, _, congrArg _ (Json.present_concat [_] "egress" _)⟩

theorem kind_eq_of_toJson_eq {a b : Body} (h : a.toJson = b.toJson) : a.kind = b.kind := by
  obtain ⟨members, v, ha⟩ := a.exists_members
  obtain ⟨members', v', hb⟩ := b.exists_members
  rw [ha, hb, Json.object.injEq] at h
  have last := List.append_inj_right' h rfl
  simp only [List.cons.injEq, Prod.mk.injEq, and_true] at last
  exact lastMember_injective last.1

theorem toJson_injective : Injective toJson := by
  intro a b h
  have kinds := kind_eq_of_toJson_eq h
  cases a <;> cases b <;> cases kinds
  · rw [Gateway.toJson_injective h]
  · rw [VirtualService.toJson_injective h]
  · rw [DestinationRule.toJson_injective h]
  · rw [ServiceEntry.toJson_injective h]
  · rw [Sidecar.toJson_injective h]

end Body

theorem ofBody_inj {name name' : String} {body body' : Body} :
    ofBody name body = ofBody name' body' ↔ name = name' ∧ body = body' := by
  rw [ofBody, ofBody, Resource.mk.injEq, Body.toJson_injective.eq_iff]

end Resource

end MeshControl
