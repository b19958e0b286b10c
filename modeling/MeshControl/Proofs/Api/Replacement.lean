import Mathlib
import MeshControl.Proofs.Api.Admission
import MeshControl.Proofs.Api.Requests

/-!
# Replacing everything at once

Whole directories are replaced by the sections of one request. All the elements of all its sections
are checked before anything is stored, so one that cannot be taken leaves everything as it was. Like
every request it has its whole effect or none.

## Main definitions

* `SyncRequest.Acceptable` — every element of every section can be taken.
* `DesiredState.Replaced` — what a replacement makes of a desired state.
* `Api.respond_all_or_nothing` — a request that is refused or that reads changes nothing, and what
  is replaced otherwise.
-/

namespace MeshControl

/-! ## Stored forms -/

namespace Route

/-- A route as it is stored once it is taken. -/
def stored (r : Route) : Route :=
  if r.named.isInternal then
    { r.named with
      internal := true
      vip := some (r.named.vip.getD (Vip.ofHostname r.named.hostname).text) }
  else r.named

@[simp] theorem id_stored (r : Route) : r.stored.id = r.id := by
  rw [stored]
  split_ifs <;> rfl

@[simp] theorem named_stored (r : Route) : r.stored.named = r.stored := by
  have lower : Text.lower r.named.host = r.named.host := Text.lower_lower r.host
  rw [stored]
  split_ifs <;> simp only [named, hostname, lower] at *

theorem accepted_eq_ok_iff {r s : Route} :
    r.accepted = .ok s ↔ r.validate = .ok () ∧ r.stored = s := by
  have form : r.accepted = r.validate >>= fun _ => .ok r.stored := by
    refine congrArg (r.validate >>= ·) (funext fun _ => ?_)
    change (if r.named.isInternal then _ else _) = Except.ok (if r.named.isInternal then _ else _)
    split_ifs <;> rfl
  rw [form, bind_eq_ok_iff]
  constructor
  · rintro ⟨⟨⟩, valid, same⟩
    exact ⟨valid, Except.ok.inj same⟩
  · rintro ⟨valid, rfl⟩
    exact ⟨(), valid, rfl⟩

end Route

namespace SyncRequest

/-- Every element of every section that is given can be taken. -/
structure Acceptable (s : SyncRequest) : Prop where
  routes : ∀ l, s.routes = some l → ∀ r ∈ l, r.validate = .ok ()
  mappings : ∀ l, s.mappings = some l → ∀ m ∈ l, m.validate = .ok ()
  associations : ∀ l, s.associations = some l → ∀ a ∈ l, a.validate = .ok ()

/-- The request with its routes as they are stored. -/
def stored (s : SyncRequest) : SyncRequest :=
  { s with routes := s.routes.map (·.map Route.stored) }

theorem mapM_accepted_eq_ok_iff {l l' : List Route} : l.mapM Route.accepted = .ok l' ↔
    (∀ r ∈ l, r.validate = .ok ()) ∧ l.map Route.stored = l' := by
  simp only [mapM_eq_ok_iff, Route.accepted_eq_ok_iff, List.forall₂_and_left]
  rw [← List.forall₂_map_left_iff (f := Route.stored), List.forall₂_eq_eq_eq]

/-- A request is taken if everything in it can be. -/
theorem accepted_eq_ok_iff {s p : SyncRequest} :
    s.accepted = .ok p ↔ s.Acceptable ∧ s.stored = p := by
  have routes (l' : Option (List Route)) : s.routes.mapM (·.mapM Route.accepted) = .ok l' ↔
      (∀ l, s.routes = some l → ∀ r ∈ l, r.validate = .ok ()) ∧
        s.routes.map (·.map Route.stored) = l' := by
    cases s.routes with
    | none => exact ⟨by rintro ⟨⟩; exact ⟨nofun, rfl⟩, by rintro ⟨-, rfl⟩; rfl⟩
    | some l =>
      refine map_eq_ok_iff.trans ?_
      simp [mapM_accepted_eq_ok_iff, and_assoc]
  have mappings : (s.mappings.getD []).forM RouteMapping.validate = .ok () ↔
      ∀ l, s.mappings = some l → ∀ m ∈ l, m.validate = .ok () := by
    rw [forM_eq_ok_iff]
    cases s.mappings <;> simp
  have associations : (s.associations.getD []).forM Association.validate = .ok () ↔
      ∀ l, s.associations = some l → ∀ a ∈ l, a.validate = .ok () := by
    rw [forM_eq_ok_iff]
    cases s.associations <;> simp
  rw [accepted]
  simp only [bind_eq_ok_iff, routes]
  constructor
  · rintro ⟨_, ⟨valid, rfl⟩, ⟨⟩, checked, ⟨⟩, checked', same⟩
    exact ⟨⟨valid, mappings.mp checked, associations.mp checked'⟩, Except.ok.inj same⟩
  · rintro ⟨h, rfl⟩
    exact ⟨_, ⟨h.routes, rfl⟩, (), mappings.mpr h.mappings, (), associations.mpr h.associations,
      rfl⟩

end SyncRequest

/-! ## Replaced directories -/

theorem Route.Directory.get?_sync_stored (d : Directory) (l : List Route) (id : RouteId) :
    (d.sync (l.map stored)).get? id = (l.filter (·.id = id)).getLast?.map stored := by
  have keys : (fun r : Route => decide (r.id = id)) ∘ stored = fun r => decide (r.id = id) :=
    funext fun r => by simp
  have forms : named ∘ stored = stored := funext named_stored
  have last := obeys_store.get?_replace d (l.map stored) (k := id)
  rwa [List.filter_map, keys, List.getLast?_map, Option.map_map, forms] at last

theorem RouteMapping.Directory.get?_sync (d : Directory) (l : List RouteMapping)
    (k : MappingKey) : (d.sync l).get? k = (l.filter (·.key = k)).getLast? := by
  have last := obeys_store.get?_replace d l (k := k)
  rwa [Option.map_id] at last

namespace DesiredState

/-- What a replacement makes of a desired state. Of the elements with one key the last is stored,
and what is not given stays. -/
structure Replaced (d : DesiredState) (s : SyncRequest) (d' : DesiredState) : Prop where
  routes : ∀ l, s.routes = some l → d'.routes.Indexed ∧
    ∀ id, d'.routes.get? id = (l.filter (·.id = id)).getLast?.map Route.stored
  mappings : ∀ l, s.mappings = some l → d'.mappings.Balanced ∧
    ∀ k, d'.mappings.get? k = (l.filter (·.key = k)).getLast?
  associations : ∀ l, s.associations = some l →
    ∀ id, d'.associations.get? id = (l.filter (·.processId = id)).getLast?.map (·.schedulerIds)
  routes_eq : s.routes = none → d'.routes = d.routes
  mappings_eq : s.mappings = none → d'.mappings = d.mappings
  associations_eq : s.associations = none → d'.associations = d.associations

theorem replaced_sync (d : DesiredState) (s : SyncRequest) : d.Replaced s (d.sync s.stored) := by
  obtain ⟨routes, mappings, associations⟩ := s
  constructor
  case routes =>
    rintro l ⟨⟩
    exact ⟨Route.Directory.indexed_run [.replace _], Route.Directory.get?_sync_stored d.routes l⟩
  case mappings =>
    rintro l ⟨⟩
    exact ⟨RouteMapping.Directory.balanced_run [.replace _],
      RouteMapping.Directory.get?_sync d.mappings l⟩
  case associations =>
    rintro l ⟨⟩ id
    exact Association.Directory.obeys_store.get?_replace d.associations l
  all_goals
    rintro ⟨⟩
    rfl

end DesiredState

/-! ## Requests -/

namespace Api

variable (node : NodeId) (c : ControlPlane) {q : Request}

/-- The reported sizes are the numbers of keys that hold something. -/
theorem sizesView_eq (d : DesiredState) : sizesView d = .object
    [("routes", .ofNat {id | (d.routes.get? id).isSome}.ncard),
     ("mappings", .ofNat {k | (d.mappings.get? k).isSome}.ncard),
     ("associations", .ofNat {id | (d.associations.get? id).isSome}.ncard)] := by
  rw [sizesView, Route.Directory.size, RouteMapping.Directory.size, Association.Directory.size,
    Table.size_eq_ncard, Table.size_eq_ncard, Table.size_eq_ncard]
  rfl

/-- What a request to replace everything does. -/
theorem respond_sync (post : q.method = "POST") (path : q.path = "/api/v1/sync") :
    respond node c q =
      match q.decode SyncRequest.ofJson with
      | .error fault => (c, .ofRefusal (.badBody fault))
      | .ok s =>
        match s.accepted with
        | .error cause => (c, .ofRefusal (.invalid cause))
        | .ok p =>
          ({ c with desired := c.desired.sync p }, .success (sizesView (c.desired.sync p))) := by
  have asks : Action.ofRequest q = .ok .sync := by
    rw [Action.ofRequest, path, post]
    rfl
  rw [respond_of_asks asks (by rw [post]; decide), perform, changeDesired, bodyOf]
  cases q.decode SyncRequest.ofJson with
  | error fault => rfl
  | ok s =>
    simp only [bind, Except.bind, Except.mapError]
    cases s.accepted <;> rfl

/-- A request to replace everything is taken if its body says what to store, and every element of
every section can be taken. -/
theorem respond_sync_of_acceptable (post : q.method = "POST") (path : q.path = "/api/v1/sync")
    {s : SyncRequest} (decoded : q.decode SyncRequest.ofJson = .ok s) (h : s.Acceptable) :
    respond node c q = ({ c with desired := c.desired.sync s.stored },
      .success (sizesView (c.desired.sync s.stored))) := by
  rw [respond_sync node c post path, decoded]
  simp only [SyncRequest.accepted_eq_ok_iff.mpr ⟨h, rfl⟩]

theorem respond_sync_of_not_acceptable (post : q.method = "POST") (path : q.path = "/api/v1/sync")
    {s : SyncRequest} (decoded : q.decode SyncRequest.ofJson = .ok s) (h : ¬ s.Acceptable) :
    ∃ cause, respond node c q = (c, .ofRefusal (.invalid cause)) := by
  rw [respond_sync node c post path, decoded]
  cases accepted : s.accepted with
  | error cause => exact ⟨cause, by simp only [accepted]⟩
  | ok p => exact absurd (SyncRequest.accepted_eq_ok_iff.mp accepted).1 h

theorem status_respond_sync_lt_iff (post : q.method = "POST") (path : q.path = "/api/v1/sync") :
    (respond node c q).2.status < 400 ↔
      ∃ s, q.decode SyncRequest.ofJson = .ok s ∧ s.Acceptable := by
  constructor
  · intro taken
    cases decoded : q.decode SyncRequest.ofJson with
    | error fault =>
      rw [respond_sync node c post path, decoded] at taken
      exact absurd taken (Refusal.le_status _).not_gt
    | ok s =>
      by_cases h : s.Acceptable
      · exact ⟨s, rfl, h⟩
      · obtain ⟨cause, refused⟩ := respond_sync_of_not_acceptable node c post path decoded h
        rw [refused] at taken
        exact absurd taken (lt_irrefl 400)
  · rintro ⟨s, decoded, h⟩
    rw [respond_sync_of_acceptable node c post path decoded h]
    exact (by decide : 200 < 400)

/-- A request that is refused, or that reads, changes nothing. A request to replace everything is
taken exactly if its body says what to store and every element of every section can be taken. Then
each section that is given takes the place of its whole directory, nothing else changes, and the
answer tells how many keys hold something. One element that cannot be taken leaves everything as it
was. -/
theorem respond_all_or_nothing (node : NodeId) (c : ControlPlane) (q : Request) :
    let c' := (respond node c q).1
    let answer := (respond node c q).2
    (400 ≤ answer.status ∨ q.method = "GET" ∨ q.method = "HEAD" → c' = c) ∧
    (q.method = "POST" → q.path = "/api/v1/sync" →
      (answer.status < 400 ↔ ∃ s, q.decode SyncRequest.ofJson = .ok s ∧ s.Acceptable) ∧
      ∀ s, q.decode SyncRequest.ofJson = .ok s →
        (s.Acceptable → c' = { c with desired := c'.desired } ∧
          c.desired.Replaced s c'.desired ∧
          answer = .success (.object
            [("routes", .ofNat {id | (c'.desired.routes.get? id).isSome}.ncard),
             ("mappings", .ofNat {k | (c'.desired.mappings.get? k).isSome}.ncard),
             ("associations", .ofNat {id | (c'.desired.associations.get? id).isSome}.ncard)])) ∧
        (¬ s.Acceptable → c' = c ∧ answer.status = 400)) := by
  intro c' answer
  have unchanged : 400 ≤ answer.status ∨ q.method = "GET" ∨ q.method = "HEAD" → c' = c :=
    fun h => h.elim respond_of_refused respond_of_reads
  refine ⟨unchanged, fun post path => ⟨status_respond_sync_lt_iff node c post path, fun s decoded =>
    ⟨fun h => ?_, fun h => ?_⟩⟩⟩
  · have taken := respond_sync_of_acceptable node c post path decoded h
    have state : c' = { c with desired := c.desired.sync s.stored } := congrArg Prod.fst taken
    have told : answer = .success (sizesView (c.desired.sync s.stored)) := congrArg Prod.snd taken
    rw [state, told, sizesView_eq]
    exact ⟨rfl, DesiredState.replaced_sync c.desired s, rfl⟩
  · obtain ⟨cause, refused⟩ :=
      respond_sync_of_not_acceptable node c post path decoded h
    exact ⟨congrArg Prod.fst refused, congrArg (fun x => x.2.status) refused⟩

end Api

end MeshControl
