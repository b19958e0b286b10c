import Mathlib
import MeshControl.Api.Service
import MeshControl.Proofs.Checks
import MeshControl.Proofs.Mapping.Sums
import MeshControl.Proofs.Route.Index

/-!
# What callers can bring about

Whatever is asked for, one by one or all at once, is checked and brought into its stored form before
it is stored. So the effect of a request on the directories is that of edits with admitted values,
and what holds after any such edits holds after any requests.

## Main definitions

* `Route.Admitted`, `RouteMapping.Admitted`, `Association.Admitted` — values in their stored form.
* `DesiredState.Edits` — edits of the three directories.
* `DesiredState.Admitted` — a desired state that edits with admitted values bring about.
* `Api.exists_edits_respond` — a request comes down to such edits.
* `Api.stored_after` — what is stored after any requests.
-/

namespace MeshControl

/-! ## Admitted values -/

/-- A route as it is stored. -/
structure Route.Admitted (r : Route) : Prop where
  id_ne : r.id ≠ ""
  host_ne : r.host ≠ ""
  lower : Text.IsLower r.host
  path : ∀ path, r.path = some path → path = "" ∨ Text.hasPrefix "/" path
  internal : r.internal ∨ Text.hasSuffix internalDomain r.host → r.internal ∧ r.vip.isSome

/-- An internal route is stored with its mark and its address. -/
theorem Route.Admitted.internal_and_vip {r : Route} (h : r.Admitted) (internal : r.isInternal) :
    r.internal ∧ r.vip.isSome := by
  rw [isInternal, Bool.or_eq_true, hostname, h.lower.lower_eq] at internal
  exact h.internal internal

structure RouteMapping.Admitted (m : RouteMapping) : Prop where
  routeId_ne : m.routeId ≠ ""
  processId_ne : m.processId ≠ ""
  weight : 1 ≤ m.weight ∧ m.weight ≤ 128

structure Association.Admitted (a : Association) : Prop where
  processId_ne : a.processId ≠ ""
  schedulerIds_ne : a.schedulerIds.toList ≠ []
  schedulerId_ne : "" ∉ a.schedulerIds

theorem Route.validate_eq_ok_iff {r : Route} : r.validate = .ok () ↔ r.id ≠ "" ∧ r.host ≠ "" ∧
    ∀ path, r.path = some path → path = "" ∨ Text.hasPrefix "/" path := by
  unfold validate
  split_ifs with unnamed
  · refine iff_of_false nofun ?_
    rintro ⟨id_ne, host_ne, -⟩
    exact unnamed.elim id_ne host_ne
  · rw [not_or] at unnamed
    rw [pathPrefix]
    cases h : r.path with
    | none => simp [unnamed]
    | some path =>
      by_cases nothing : path = ""
      · simp [unnamed, nothing, Option.filter_some]
      · simp [unnamed, nothing, Option.filter_some]

/-- Accepting a route brings it into its stored form. -/
theorem Route.admitted_of_accepted {r s : Route} (h : r.accepted = .ok s) : s.Admitted := by
  obtain ⟨⟨⟩, valid, h⟩ := bind_eq_ok_iff.mp h
  obtain ⟨id_ne, host_ne, path⟩ := validate_eq_ok_iff.mp valid
  have lower : Text.IsLower r.hostname := Text.isLower_lower r.host
  have hostname_ne : r.hostname ≠ "" := mt Text.lower_eq_empty_iff.mp host_ne
  simp only at h
  split_ifs at h with internal
  · obtain rfl := Except.ok.inj h
    exact ⟨id_ne, hostname_ne, lower, path, fun _ => ⟨rfl, rfl⟩⟩
  · obtain rfl := Except.ok.inj h
    refine ⟨id_ne, hostname_ne, lower, path, fun marked => absurd ?_ internal⟩
    have hostname_eq : { r with host := r.hostname }.hostname = r.hostname := lower.lower_eq
    rw [isInternal, Bool.or_eq_true, hostname_eq]
    exact marked

theorem RouteMapping.validate_eq_ok_iff {m : RouteMapping} :
    m.validate = .ok () ↔ m.Admitted := by
  unfold validate
  split_ifs with unnamed weight
  · exact iff_of_false nofun fun h => unnamed.elim h.routeId_ne h.processId_ne
  · rw [not_or] at unnamed
    exact iff_of_true rfl ⟨unnamed.1, unnamed.2, weight⟩
  · exact iff_of_false nofun fun h => weight h.weight

theorem Association.validate_eq_ok_iff {a : Association} : a.validate = .ok () ↔ a.Admitted := by
  unfold validate
  split_ifs with unnamed member
  · exact iff_of_false nofun fun h => unnamed.elim h.processId_ne h.schedulerIds_ne
  · exact iff_of_false nofun fun h => h.schedulerId_ne member
  · rw [not_or] at unnamed
    exact iff_of_true rfl ⟨unnamed.1, unnamed.2, member⟩

/-- All that is in the sections is in its stored form. -/
structure SyncRequest.Admitted (q : SyncRequest) : Prop where
  routes : ∀ l, q.routes = some l → ∀ r ∈ l, r.Admitted
  mappings : ∀ l, q.mappings = some l → ∀ m ∈ l, m.Admitted
  associations : ∀ l, q.associations = some l → ∀ a ∈ l, a.Admitted

theorem SyncRequest.admitted_of_accepted {q p : SyncRequest} (h : q.accepted = .ok p) :
    p.Admitted := by
  obtain ⟨routes, accepted, h⟩ := bind_eq_ok_iff.mp h
  obtain ⟨⟨⟩, mappings, h⟩ := bind_eq_ok_iff.mp h
  obtain ⟨⟨⟩, associations, h⟩ := bind_eq_ok_iff.mp h
  obtain rfl := Except.ok.inj h
  refine ⟨?_, ?_, ?_⟩
  · rintro l rfl r hr
    cases given : q.routes with
    | none =>
      rw [given] at accepted
      cases accepted
    | some sent =>
      rw [given] at accepted
      obtain ⟨l', each, same⟩ := map_eq_ok_iff.mp accepted
      obtain rfl := Option.some.inj same
      obtain ⟨s, -, checked⟩ := exists_of_mem_mapM each hr
      exact Route.admitted_of_accepted checked
  · intro l given m hm
    rw [given] at mappings
    exact RouteMapping.validate_eq_ok_iff.mp (forM_eq_ok_iff.mp mappings m hm)
  · intro l given a ha
    rw [given] at associations
    exact Association.validate_eq_ok_iff.mp (forM_eq_ok_iff.mp associations a ha)

/-! ## Edits of the directories -/

namespace Association.Directory

def store : Store ProcessId Association Directory where
  empty := empty
  put := upsert
  drop := delete
  replace := sync
  replace_eq _ _ := rfl

theorem obeys_store : store.Obeys processId schedulerIds get? where
  put := get?_upsert
  drop := get?_delete
  empty _ := rfl

theorem mem_list {d : Directory} {a : Association} :
    a ∈ d.list ↔ d.get? a.processId = some a.schedulerIds := by
  rw [get?, Table.get?_eq_some_iff, list, List.mem_map]
  constructor
  · rintro ⟨e, member, rfl⟩
    exact member
  · exact fun member => ⟨_, member, rfl⟩

end Association.Directory

namespace DesiredState

/-- Edits of each of the directories. -/
structure Edits where
  routes : List (Edit RouteId Route)
  mappings : List (Edit MappingKey RouteMapping)
  associations : List (Edit ProcessId Association)

namespace Edits

/-- All that is put is in its stored form. -/
structure Admitted (e : Edits) : Prop where
  routes : ∀ x ∈ e.routes, ∀ r ∈ x.values, r.Admitted
  mappings : ∀ x ∈ e.mappings, ∀ m ∈ x.values, m.Admitted
  associations : ∀ x ∈ e.associations, ∀ a ∈ x.values, a.Admitted

/-- Edits one after another. -/
def append (e f : Edits) : Edits :=
  ⟨e.routes ++ f.routes, e.mappings ++ f.mappings, e.associations ++ f.associations⟩

theorem Admitted.append {e f : Edits} (he : e.Admitted) (hf : f.Admitted) :
    (e.append f).Admitted where
  routes x hx := (List.mem_append.mp hx).elim (he.routes x) (hf.routes x)
  mappings x hx := (List.mem_append.mp hx).elim (he.mappings x) (hf.mappings x)
  associations x hx := (List.mem_append.mp hx).elim (he.associations x) (hf.associations x)

theorem admitted_nil : Admitted ⟨[], [], []⟩ :=
  ⟨List.forall_mem_nil _, List.forall_mem_nil _, List.forall_mem_nil _⟩

theorem admitted_route {x : Edit RouteId Route} (h : ∀ r ∈ x.values, r.Admitted) :
    Admitted ⟨[x], [], []⟩ :=
  ⟨List.forall_mem_singleton.mpr h, List.forall_mem_nil _, List.forall_mem_nil _⟩

theorem admitted_mapping {x : Edit MappingKey RouteMapping} (h : ∀ m ∈ x.values, m.Admitted) :
    Admitted ⟨[], [x], []⟩ :=
  ⟨List.forall_mem_nil _, List.forall_mem_singleton.mpr h, List.forall_mem_nil _⟩

theorem admitted_association {x : Edit ProcessId Association} (h : ∀ a ∈ x.values, a.Admitted) :
    Admitted ⟨[], [], [x]⟩ :=
  ⟨List.forall_mem_nil _, List.forall_mem_nil _, List.forall_mem_singleton.mpr h⟩

/-- The replacement of the sections that are given. -/
def replacing (q : SyncRequest) : Edits where
  routes := (q.routes.map .replace).toList
  mappings := (q.mappings.map .replace).toList
  associations := (q.associations.map .replace).toList

theorem admitted_replacing {q : SyncRequest} (h : q.Admitted) : (replacing q).Admitted := by
  refine ⟨?_, ?_, ?_⟩
  · intro x hx
    obtain ⟨l, given, rfl⟩ := Option.map_eq_some_iff.mp (Option.mem_toList.mp hx)
    exact h.routes l given
  · intro x hx
    obtain ⟨l, given, rfl⟩ := Option.map_eq_some_iff.mp (Option.mem_toList.mp hx)
    exact h.mappings l given
  · intro x hx
    obtain ⟨l, given, rfl⟩ := Option.map_eq_some_iff.mp (Option.mem_toList.mp hx)
    exact h.associations l given

end Edits

def edit (d : DesiredState) (e : Edits) : DesiredState where
  routes := e.routes.foldl Route.Directory.store.edit d.routes
  mappings := e.mappings.foldl RouteMapping.Directory.store.edit d.mappings
  associations := e.associations.foldl Association.Directory.store.edit d.associations

theorem edit_append (d : DesiredState) (e f : Edits) : d.edit (e.append f) = (d.edit e).edit f := by
  simp only [edit, Edits.append, List.foldl_append]

theorem sync_eq_edit (d : DesiredState) (q : SyncRequest) : d.sync q = d.edit (.replacing q) := by
  rcases q with ⟨_ | _, _ | _, _ | _⟩ <;> rfl

/-- What edits with admitted values make of nothing. -/
def Admitted (d : DesiredState) : Prop := ∃ e : Edits, e.Admitted ∧ d = empty.edit e

theorem admitted_empty : Admitted empty := ⟨_, Edits.admitted_nil, rfl⟩

namespace Admitted

variable {d : DesiredState}

theorem edit (h : d.Admitted) {e : Edits} (he : e.Admitted) : (d.edit e).Admitted := by
  obtain ⟨f, hf, rfl⟩ := h
  exact ⟨f.append e, hf.append he, (edit_append _ _ _).symm⟩

theorem indexed (h : d.Admitted) : d.routes.Indexed := by
  obtain ⟨e, -, rfl⟩ := h
  exact Route.Directory.indexed_run e.routes

theorem balanced (h : d.Admitted) : d.mappings.Balanced := by
  obtain ⟨e, -, rfl⟩ := h
  exact RouteMapping.Directory.balanced_run e.mappings

theorem route (h : d.Admitted) {r : Route} (stored : r ∈ d.routes.list) : r.Admitted := by
  obtain ⟨e, admitted, rfl⟩ := h
  obtain ⟨id, found⟩ := Route.Directory.mem_list.mp stored
  obtain ⟨x, hx, s, hs, -, rfl⟩ := Route.Directory.obeys_store.exists_value found
  have form := admitted.routes x hx s hs
  have named : s.named = s := by rw [Route.named, Route.hostname, form.lower.lower_eq]
  rwa [named]

theorem mapping (h : d.Admitted) {m : RouteMapping} (stored : m ∈ d.mappings.list) :
    m.Admitted := by
  obtain ⟨e, admitted, rfl⟩ := h
  obtain ⟨k, found⟩ := RouteMapping.Directory.mem_list.mp stored
  obtain ⟨x, hx, _, hm, -, rfl⟩ := RouteMapping.Directory.obeys_store.exists_value found
  exact admitted.mappings x hx _ hm

theorem association (h : d.Admitted) {a : Association} (stored : a ∈ d.associations.list) :
    a.Admitted := by
  obtain ⟨e, admitted, rfl⟩ := h
  have found := Association.Directory.mem_list.mp stored
  obtain ⟨x, hx, b, hb, processId, schedulerIds⟩ :=
    Association.Directory.obeys_store.exists_value found
  have same : b = a := by
    cases a
    cases b
    simp_all
  exact same ▸ admitted.associations x hx b hb

/-- A route with a mapping has a sum. -/
theorem denominator_pos (h : d.Admitted) {m : RouteMapping} (stored : m ∈ d.mappings.list) :
    0 < d.mappings.denominator m.routeId := by
  obtain ⟨k, found⟩ := RouteMapping.Directory.mem_list.mp stored
  have weight : 1 ≤ m.weight.toNat := UInt32.le_iff_toNat_le.mp (h.mapping stored).weight.1
  rw [RouteMapping.Directory.denominator, h.balanced.get?_sums found, Option.getD_some]
  omega

end Admitted

end DesiredState

/-! ## Requests -/

namespace Api

open DesiredState (Edits)

variable {node : NodeId} {c : ControlPlane}

/-- What an action changes comes down to edits with admitted values. -/
theorem exists_edits_changeDesired {d d' : DesiredState} {request : Request} {action : Action}
    {answer : Answer} (h : changeDesired d request action = .ok (d', answer)) :
    ∃ e : Edits, e.Admitted ∧ d' = d.edit e := by
  cases action with
  | putRoute =>
    obtain ⟨r, -, h⟩ := bind_eq_ok_iff.mp h
    obtain ⟨s, accepted, h⟩ := bind_eq_ok_iff.mp h
    obtain ⟨rfl, -⟩ := Prod.mk.inj (Except.ok.inj h)
    have admitted := Route.admitted_of_accepted (mapError_eq_ok_iff.mp accepted)
    exact ⟨⟨[.put s], [], []⟩, Edits.admitted_route (by simpa [Edit.values] using admitted), rfl⟩
  | deleteRoute id =>
    obtain ⟨rfl, -⟩ := Prod.mk.inj (Except.ok.inj h)
    exact ⟨⟨[.drop id], [], []⟩, Edits.admitted_route (List.forall_mem_nil _), rfl⟩
  | putMapping =>
    obtain ⟨m, -, h⟩ := bind_eq_ok_iff.mp h
    obtain ⟨⟨⟩, valid, h⟩ := bind_eq_ok_iff.mp h
    obtain ⟨rfl, -⟩ := Prod.mk.inj (Except.ok.inj h)
    have admitted := RouteMapping.validate_eq_ok_iff.mp (mapError_eq_ok_iff.mp valid)
    exact ⟨⟨[], [.put m], []⟩, Edits.admitted_mapping (by simpa [Edit.values] using admitted), rfl⟩
  | deleteMapping key =>
    obtain ⟨rfl, -⟩ := Prod.mk.inj (Except.ok.inj h)
    exact ⟨⟨[], [.drop key], []⟩, Edits.admitted_mapping (List.forall_mem_nil _), rfl⟩
  | putAssociation =>
    obtain ⟨a, -, h⟩ := bind_eq_ok_iff.mp h
    obtain ⟨⟨⟩, valid, h⟩ := bind_eq_ok_iff.mp h
    obtain ⟨rfl, -⟩ := Prod.mk.inj (Except.ok.inj h)
    have admitted := Association.validate_eq_ok_iff.mp (mapError_eq_ok_iff.mp valid)
    exact ⟨⟨[], [], [.put a]⟩,
      Edits.admitted_association (by simpa [Edit.values] using admitted), rfl⟩
  | deleteAssociation id =>
    obtain ⟨rfl, -⟩ := Prod.mk.inj (Except.ok.inj h)
    exact ⟨⟨[], [], [.drop id]⟩, Edits.admitted_association (List.forall_mem_nil _), rfl⟩
  | sync =>
    obtain ⟨q, -, h⟩ := bind_eq_ok_iff.mp h
    obtain ⟨p, accepted, h⟩ := bind_eq_ok_iff.mp h
    obtain ⟨rfl, -⟩ := Prod.mk.inj (Except.ok.inj h)
    have admitted := SyncRequest.admitted_of_accepted (mapError_eq_ok_iff.mp accepted)
    exact ⟨.replacing p, Edits.admitted_replacing admitted, DesiredState.sync_eq_edit d p⟩
  | _ => cases h

/-- The effect of a request is that of edits with admitted values. -/
theorem exists_edits_respond (node : NodeId) (c : ControlPlane) (request : Request) :
    ∃ e : Edits, e.Admitted ∧
      (respond node c request).1 = { c with desired := c.desired.edit e } := by
  have unchanged : ∃ e : Edits, e.Admitted ∧ c = { c with desired := c.desired.edit e } :=
    ⟨_, Edits.admitted_nil, rfl⟩
  have effect : (respond node c request).1 = (handle node c request).1 := rfl
  rw [effect, handle]
  split
  · rename_i c' answer h
    obtain ⟨action, -, h⟩ := bind_eq_ok_iff.mp h
    rw [perform] at h
    split_ifs at h
    · obtain ⟨⟨d', answer'⟩, changed, same⟩ := map_eq_ok_iff.mp h
      obtain ⟨rfl, rfl⟩ := Prod.mk.inj same
      obtain ⟨e, admitted, rfl⟩ := exists_edits_changeDesired changed
      exact ⟨e, admitted, rfl⟩
    · obtain ⟨answer', -, same⟩ := map_eq_ok_iff.mp h
      obtain ⟨rfl, rfl⟩ := Prod.mk.inj same
      exact unchanged
  · exact unchanged

theorem admitted_respond (h : c.desired.Admitted) (request : Request) :
    (respond node c request).1.desired.Admitted := by
  obtain ⟨e, admitted, effect⟩ := exists_edits_respond node c request
  rw [effect]
  exact h.edit admitted

/-- The control plane after requests in a row. -/
def after (node : NodeId) (c : ControlPlane) (requests : List Request) : ControlPlane :=
  requests.foldl (fun c q => (respond node c q).1) c

theorem admitted_after (h : c.desired.Admitted) (requests : List Request) :
    (after node c requests).desired.Admitted := by
  induction requests using List.reverseRecOn with
  | nil => exact h
  | append_singleton requests request ih =>
    rw [after, List.foldl_concat]
    exact admitted_respond ih request

/-- After any requests to a control plane without routes, mappings and associations, all that is
stored is in its stored form. So a route with a mapping has a sum that is not zero, and the share of
a mapping is what its weight is of that sum. -/
theorem stored_after (node : NodeId) (backends : Reconciler) (snapshots : Snapshot.Cache)
    (requests : List Request) :
    let d := (after node ⟨.empty, backends, snapshots⟩ requests).desired
    (∀ r ∈ d.routes.list, r.Admitted) ∧
    (∀ m ∈ d.mappings.list, m.Admitted) ∧
    (∀ a ∈ d.associations.list, a.Admitted) ∧
    ∀ m ∈ d.mappings.list, 0 < d.mappings.denominator m.routeId ∧
      d.mappings.share m = UInt32.ofNat (min
        (((Double.ofNat m.weight.toNat).div
          (Double.ofNat (d.mappings.denominator m.routeId))).scale 100).round
        (UInt32.size - 1)) := by
  intro d
  have admitted : d.Admitted := admitted_after DesiredState.admitted_empty requests
  refine ⟨fun _ => admitted.route, fun _ => admitted.mapping, fun _ => admitted.association, ?_⟩
  intro m stored
  have pos := admitted.denominator_pos stored
  refine ⟨pos, ?_⟩
  rw [RouteMapping.Directory.share, percentage, if_neg pos.ne']

end Api

end MeshControl
