import Mathlib
import MeshControl.Api.Service
import MeshControl.Proofs.Checks
import MeshControl.Proofs.Json.Record
import MeshControl.Proofs.Json.RoundTrip
import MeshControl.Proofs.Table

/-!
# Written values

Routes, mappings and associations are read back from the form in which callers read them. For a
mapping this is a view that also tells its share, which is passed over.

## Main definitions

* `Route.ofJson_toJson`, `RouteMapping.ofJson_toJson`, `Association.ofJson_toJson`,
  `Api.ofJson_mappingView` — values are read back from what was written.
* `DesiredState.exported` — the listings of the directories, as callers read them.
* `DesiredState.ofJson_exported` — they are read back as a request to replace everything.
-/

namespace MeshControl

/-! ## Written forms -/

namespace Json

theorem asWord_ofNat (w : UInt32) : asWord (.ofNat w.toNat) = .ok w := by
  have small : w.toNat < UInt32.size := w.toNat_lt
  simp [asWord, asNat, ofNat, small, Except.map]

theorem asList_map {α : Type} {value : Decoder α} {f : α → Json}
    (decoded : ∀ a, value (f a) = .ok a) (l : List α) :
    asList value (.array (l.map f)) = .ok l := by
  refine mapM_eq_ok_iff.mpr ?_
  rw [List.forall₂_map_left_iff]
  exact List.forall₂_same.mpr fun a _ => decoded a

theorem optional_asList {α : Type} {value : Decoder α} {f : α → Json} {l : List α}
    {members : List (String × Json)} {name : String} (names : (members.map (·.1)).Nodup)
    (there : (name, .array (l.map f)) ∈ members) (decoded : ∀ a, value (f a) = .ok a) :
    Record.optional ⟨members⟩ name (asList value) = .ok (some l) := by
  have notNull : Json.array (l.map f) ≠ .null := nofun
  exact Record.member_eq_ok names there (asNullable_eq_ok notNull (asList_map decoded l))

end Json

open Json

theorem Route.ofJson_toJson (r : Route) : ofJson r.toJson = .ok r := by
  let ms : List (String × Option Json) :=
    [("id", some (.string r.id)), ("host", some (.string r.host)), ("path", r.path.map .string),
     ("internal", some (.bool r.internal)), ("vip", r.vip.map .string)]
  have names : (ms.map (·.1)).Nodup :=
    (by decide : ["id", "host", "path", "internal", "vip"].Nodup)
  have id : Record.required ⟨present ms⟩ "id" asString = .ok r.id :=
    required_present (v := .string _) names (by simp [ms]) rfl
  have host : Record.required ⟨present ms⟩ "host" asString = .ok r.host :=
    required_present (v := .string _) names (by simp [ms]) rfl
  have path : Record.optional ⟨present ms⟩ "path" asString = .ok r.path :=
    optional_present (f := .string) names (by simp [ms]) (fun _ => rfl) nofun
  have internal : Record.withDefault ⟨present ms⟩ "internal" false asBool = .ok r.internal :=
    withDefault_present (v := .bool _) names (by simp [ms]) rfl
  have vip : Record.optional ⟨present ms⟩ "vip" asString = .ok r.vip :=
    optional_present (f := .string) names (by simp [ms]) (fun _ => rfl) nofun
  refine record_eq_ok (fun m hm unknown => absurd ?_ unknown) ?_
  · exact List.mem_map_of_mem (f := Prod.fst) (mem_present.mp hm)
  · simp only [id, host, path, internal, vip, ms]
    rfl

/-- A mapping is read back whatever stands behind its members under other names. -/
theorem RouteMapping.ofJson_members (m : RouteMapping) {more : List (String × Json)}
    (names : ((m.members ++ more).map (·.1)).Nodup)
    (whole : ∀ e ∈ more, ¬ e.2.endsBroken ∧ ¬ e.2.isNameless) :
    ofJson (.object (m.members ++ more)) = .ok m := by
  have routeId : Record.required ⟨m.members ++ more⟩ "route_id" asString = .ok m.routeId :=
    Record.member_eq_ok (v := .string m.routeId) names (by simp [members]) rfl
  have processId : Record.required ⟨m.members ++ more⟩ "process_id" asString = .ok m.processId :=
    Record.member_eq_ok (v := .string m.processId) names (by simp [members]) rfl
  have weight : Record.required ⟨m.members ++ more⟩ "weight" asWord = .ok m.weight :=
    Record.member_eq_ok (v := .ofNat m.weight.toNat) names (by simp [members]) (asWord_ofNat _)
  refine record_eq_ok (fun e he unknown => ?_) ?_
  · obtain known | he := List.mem_append.mp he
    · exact absurd (List.mem_map_of_mem known) unknown
    · exact whole e he
  · simp only [routeId, processId, weight]
    rfl

theorem RouteMapping.ofJson_toJson (m : RouteMapping) : ofJson m.toJson = .ok m := by
  have same : m.toJson = .object (m.members ++ []) := by rw [List.append_nil]; rfl
  rw [same]
  exact ofJson_members m (by decide : ["route_id", "process_id", "weight"].Nodup) nofun

/-- A mapping is read back from the view that tells its share. -/
theorem Api.ofJson_mappingView (d : RouteMapping.Directory) (m : RouteMapping) :
    RouteMapping.ofJson (mappingView d m) = .ok m := by
  refine RouteMapping.ofJson_members m
    (by decide : ["route_id", "process_id", "weight", "calculated_weight"].Nodup) ?_
  simp [Json.ofNat, Json.endsBroken, Json.isNameless]

theorem Association.ofJson_toJson (a : Association) : ofJson a.toJson = .ok a := by
  let members := [("process_id", Json.string a.processId),
    ("scheduler_process_ids", idsJson a.schedulerIds)]
  have names : (members.map (·.1)).Nodup :=
    (by decide : ["process_id", "scheduler_process_ids"].Nodup)
  have ids : asList asString (idsJson a.schedulerIds) = .ok a.schedulerIds.toList :=
    asList_map (f := .string) (fun _ => rfl) _
  have processId : Record.required ⟨members⟩ "process_id" asString = .ok a.processId :=
    Record.member_eq_ok (v := .string a.processId) names (by simp) rfl
  have schedulerIds : Record.required ⟨members⟩ "scheduler_process_ids"
      (fun v => SortedSet.ofList <$> asList asString v) = .ok a.schedulerIds := by
    refine Record.member_eq_ok (v := idsJson a.schedulerIds) names (by simp) ?_
    rw [ids]
    exact congrArg Except.ok (SortedSet.ofList_toList _)
  refine record_eq_ok (fun m hm unknown => absurd (List.mem_map_of_mem hm) unknown) ?_
  simp only [processId, schedulerIds, members]
  rfl

/-! ## Plain values -/

theorem Route.plain_toJson (r : Route) : r.toJson.Plain := by
  refine .object fun m hm => ?_
  have there := mem_present.mp hm
  simp only [List.mem_cons, List.not_mem_nil, or_false, Prod.mk.injEq] at there
  rcases there with ⟨-, h⟩ | ⟨-, h⟩ | ⟨-, h⟩ | ⟨-, h⟩ | ⟨-, h⟩
  · exact Option.some.inj h ▸ .string _
  · exact Option.some.inj h ▸ .string _
  · obtain ⟨path, -, same⟩ := Option.map_eq_some_iff.mp h.symm
    exact same ▸ .string _
  · exact Option.some.inj h ▸ .bool _
  · obtain ⟨vip, -, same⟩ := Option.map_eq_some_iff.mp h.symm
    exact same ▸ .string _

theorem Json.plain_word (w : UInt32) : (Json.ofNat w.toNat).Plain :=
  .nat (w.toNat_lt.trans (by decide))

theorem RouteMapping.plain_members (m : RouteMapping) : ∀ e ∈ m.members, e.2.Plain := by
  intro e he
  simp only [members, List.mem_cons, List.not_mem_nil, or_false] at he
  rcases he with rfl | rfl | rfl
  · exact .string _
  · exact .string _
  · exact plain_word _

theorem RouteMapping.plain_toJson (m : RouteMapping) : m.toJson.Plain := .object m.plain_members

theorem Api.plain_mappingView (d : RouteMapping.Directory) (m : RouteMapping) :
    (mappingView d m).Plain := by
  refine .object fun e he => ?_
  obtain he | he := List.mem_append.mp he
  · exact m.plain_members e he
  · obtain rfl := List.mem_singleton.mp he
    exact plain_word _

theorem Association.plain_toJson (a : Association) : a.toJson.Plain := by
  refine .object fun e he => ?_
  simp only [List.mem_cons, List.not_mem_nil, or_false] at he
  rcases he with rfl | rfl
  · exact .string _
  · refine .array fun v hv => ?_
    obtain ⟨id, -, rfl⟩ := List.mem_map.mp hv
    exact .string _

/-! ## Everything that is stored -/

namespace DesiredState

/-- The listings of the directories, as the sections of a replacement. -/
def listing (d : DesiredState) : SyncRequest :=
  ⟨some d.routes.list, some d.mappings.list, some d.associations.list⟩

/-- The listings as callers read them. -/
def exported (d : DesiredState) : Json :=
  .object
    [("routes", .array (d.routes.list.map Route.toJson)),
     ("mappings", .array (d.mappings.list.map (Api.mappingView d.mappings))),
     ("associations", .array (d.associations.list.map Association.toJson))]

theorem plain_exported (d : DesiredState) : d.exported.Plain := by
  refine .object fun e he => ?_
  simp only [List.mem_cons, List.not_mem_nil, or_false] at he
  rcases he with rfl | rfl | rfl
  · exact .array (List.forall_mem_map.mpr fun r _ => r.plain_toJson)
  · exact .array (List.forall_mem_map.mpr fun m _ => Api.plain_mappingView _ m)
  · exact .array (List.forall_mem_map.mpr fun a _ => a.plain_toJson)

theorem ofJson_exported (d : DesiredState) : SyncRequest.ofJson d.exported = .ok d.listing := by
  let members :=
    [("routes", Json.array (d.routes.list.map Route.toJson)),
     ("mappings", .array (d.mappings.list.map (Api.mappingView d.mappings))),
     ("associations", .array (d.associations.list.map Association.toJson))]
  have names : (members.map (·.1)).Nodup :=
    (by decide : ["routes", "mappings", "associations"].Nodup)
  have routes : Record.optional ⟨members⟩ "routes" (asList Route.ofJson) = .ok d.listing.routes :=
    optional_asList names (by simp [members]) Route.ofJson_toJson
  have mappings : Record.optional ⟨members⟩ "mappings" (asList RouteMapping.ofJson) =
      .ok d.listing.mappings :=
    optional_asList names (by simp [members]) (Api.ofJson_mappingView d.mappings)
  have associations : Record.optional ⟨members⟩ "associations" (asList Association.ofJson) =
      .ok d.listing.associations :=
    optional_asList names (by simp [members]) Association.ofJson_toJson
  refine record_eq_ok (fun m hm unknown => absurd (List.mem_map_of_mem hm) unknown) ?_
  simp only [routes, mappings, associations, members]
  rfl

end DesiredState

end MeshControl
