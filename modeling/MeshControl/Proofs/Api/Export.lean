import Mathlib
import MeshControl.Proofs.Api.Replacement
import MeshControl.Proofs.Api.Resolution
import MeshControl.Proofs.Api.Written
import MeshControl.Proofs.Operations

/-!
# Sending back what was read

Callers can read everything that is stored, and send it to the same or to another control plane.
What is stored is in its stored form, which is taken as it is, and sums and index are made of what
is stored. So the other control plane then has the same desired state, and the one that was read
does not change, whether everything or a single value is sent.

## Main definitions

* `Api.export?` — what callers read of the directories.
* `Api.Request.Posts` — a request sends a value to a path.
* `DesiredState.Restates` — a value that was read, and where it can be sent.
* `DesiredState.Admitted.sync_listing` — a replacement by everything that is stored elsewhere.
* `Pipeline.export_restores` — what was read brings back the desired state.
-/

namespace MeshControl

/-! ## Stored forms -/

namespace Route.Admitted

variable {r : Route}

theorem validate_eq_ok (h : r.Admitted) : r.validate = .ok () :=
  validate_eq_ok_iff.mpr ⟨h.id_ne, h.host_ne, h.path⟩

/-- A route in its stored form is stored as it is. -/
theorem stored_eq (h : r.Admitted) : r.stored = r := by
  have named : r.named = r := by rw [Route.named, hostname, h.lower.lower_eq]
  rw [stored, named]
  split_ifs with internal
  · obtain ⟨flag, vip⟩ := h.internal_and_vip internal
    obtain ⟨v, own⟩ := Option.isSome_iff_exists.mp vip
    cases r
    simp_all
  · rfl

end Route.Admitted

/-! ## Replacing by what is stored -/

/-- What has a key in a list is the last that has it, if nothing else does. -/
theorem getLast?_filter_eq {α κ : Type} [DecidableEq κ] {key : α → κ} {l : List α} {k : κ}
    {o : Option α} (h : ∀ a, a ∈ l ∧ key a = k ↔ o = some a) :
    (l.filter (key · = k)).getLast? = o := by
  have member : ∀ a, a ∈ l.filter (key · = k) ↔ o = some a := by
    intro a
    rw [← h, List.mem_filter, decide_eq_true_iff]
  cases last : (l.filter (key · = k)).getLast? with
  | none =>
    rw [List.getLast?_eq_none_iff] at last
    symm
    rw [Option.eq_none_iff_forall_ne_some]
    intro a found
    exact absurd ((member a).mpr found) (last ▸ List.not_mem_nil)
  | some a => exact ((member a).mp (List.mem_of_getLast? last)).symm

namespace DesiredState

namespace Admitted

variable {d : DesiredState}

theorem acceptable_listing (h : d.Admitted) : d.listing.Acceptable where
  routes l given r hr := by
    obtain rfl := Option.some.inj given
    exact (h.route hr).validate_eq_ok
  mappings l given m hm := by
    obtain rfl := Option.some.inj given
    exact RouteMapping.validate_eq_ok_iff.mpr (h.mapping hm)
  associations l given a ha := by
    obtain rfl := Option.some.inj given
    exact Association.validate_eq_ok_iff.mpr (h.association ha)

theorem stored_listing (h : d.Admitted) : d.listing.stored = d.listing := by
  have routes : d.routes.list.map Route.stored = d.routes.list :=
    (List.map_congr_left fun r hr => (h.route hr).stored_eq).trans (List.map_id _)
  rw [SyncRequest.stored, listing, Option.map_some, routes]

/-- What everything that is stored makes of any desired state. -/
theorem sync_listing (h : d.Admitted) (b : DesiredState) : b.sync d.listing = d := by
  have replaced := b.replaced_sync d.listing
  rw [h.stored_listing] at replaced
  obtain ⟨indexed, routes⟩ := replaced.routes _ rfl
  obtain ⟨balanced, mappings⟩ := replaced.mappings _ rfl
  have associations := replaced.associations _ rfl
  refine Coherent.eq_of_get? ⟨indexed, balanced⟩ h.coherent (fun id => ?_) (fun k => ?_)
    fun id => ?_
  · have last : (d.routes.list.filter (·.id = id)).getLast? = d.routes.get? id := by
      refine getLast?_filter_eq fun r => ⟨?_, fun found => ?_⟩
      · rintro ⟨hr, rfl⟩
        exact h.indexed.get?_id hr
      · exact ⟨Route.Directory.mem_list.mpr ⟨id, found⟩, h.indexed.keyed id r found⟩
    rw [routes, last]
    cases found : d.routes.get? id with
    | none => rfl
    | some r => exact congrArg some (h.route (Route.Directory.mem_list.mpr ⟨id, found⟩)).stored_eq
  · rw [mappings]
    refine getLast?_filter_eq fun m => ⟨?_, fun found => ?_⟩
    · rintro ⟨hm, rfl⟩
      obtain ⟨k, found⟩ := RouteMapping.Directory.mem_list.mp hm
      rwa [h.balanced.keyed k m found]
    · exact ⟨RouteMapping.Directory.mem_list.mpr ⟨k, found⟩, h.balanced.keyed k m found⟩
  · have last : (d.associations.list.filter (·.processId = id)).getLast? =
        (d.associations.get? id).map (⟨id, ·⟩) := by
      refine getLast?_filter_eq fun a => ⟨?_, fun found => ?_⟩
      · rintro ⟨ha, rfl⟩
        rw [Association.Directory.mem_list.mp ha]
        rfl
      · obtain ⟨ids, stored, rfl⟩ := Option.map_eq_some_iff.mp found
        exact ⟨Association.Directory.mem_list.mpr stored, rfl⟩
    rw [associations, last]
    cases d.associations.get? id <;> rfl

/-! ## Single values -/

theorem upsert_route (h : d.Admitted) {r : Route} (stored : r ∈ d.routes.list) :
    d.routes.upsert r = d.routes := by
  refine (h.indexed.upsert r).eq_of_get? h.indexed fun id => ?_
  have form : ({ r with host := r.hostname } : Route) = r := by
    rw [Route.hostname, (h.route stored).lower.lower_eq]
  rw [Route.Directory.get?_upsert, form]
  split_ifs with same
  · rw [same, h.indexed.get?_id stored]
  · rfl

theorem map_mapping (h : d.Admitted) {m : RouteMapping} (stored : m ∈ d.mappings.list) :
    d.mappings.map m = d.mappings := by
  refine (h.balanced.map m).eq_of_get? h.balanced fun k => ?_
  obtain ⟨k', found⟩ := RouteMapping.Directory.mem_list.mp stored
  rw [RouteMapping.Directory.get?_map]
  split_ifs with same
  · rw [same, h.balanced.keyed k' m found, found]
  · rfl

theorem upsert_association {a : Association} (stored : a ∈ d.associations.list) :
    d.associations.upsert a = d.associations := by
  refine congrArg Association.Directory.mk (Table.eq_of_get? fun id => ?_)
  have put := Association.Directory.get?_upsert d.associations a id
  split_ifs at put with same
  · rw [same] at put ⊢
    exact put.trans (Association.Directory.mem_list.mp stored).symm
  · exact put

end Admitted

end DesiredState

/-! ## Requests -/

namespace DesiredState

/-- A value that callers read, and a path that they can send it to. -/
inductive Restates (d : DesiredState) : String → Json → Prop
  | everything : Restates d "/api/v1/sync" d.exported
  | route {r : Route} (stored : r ∈ d.routes.list) : Restates d "/api/v1/routes" r.toJson
  | mapping {m : RouteMapping} (stored : m ∈ d.mappings.list) :
      Restates d "/api/v1/mappings" m.toJson
  | view {m : RouteMapping} (stored : m ∈ d.mappings.list) :
      Restates d "/api/v1/mappings" (Api.mappingView d.mappings m)
  | association {a : Association} (stored : a ∈ d.associations.list) :
      Restates d "/api/v1/associations" a.toJson

end DesiredState

namespace Api

/-- A request sends a value to a path, in whatever words. -/
structure Request.Posts (q : Request) (path : String) (v : Json) : Prop where
  post : q.method = "POST"
  path_eq : q.path = path
  isJson : q.isJson
  fits : q.body.length ≤ maxBody
  body : Json.read q.body = ⟨v, false⟩

/-- The request that sends a value as it is written. -/
def Request.posting (path : String) (v : Json) : Request :=
  ⟨"POST", path, some "application/json", Utf8.encode v.text⟩

theorem Request.posts_posting (path : String) {v : Json} (plain : v.Plain)
    (fits : (Utf8.encode v.text).length ≤ maxBody) : (posting path v).Posts path v :=
  have json : (MediaType.parse? "application/json").any MediaType.isJson := by decide
  ⟨rfl, rfl, json, fits, plain.read_text⟩

theorem Request.Posts.decode_eq_ok {q : Request} {path : String} {v : Json} (h : q.Posts path v)
    {α : Type} {value : Json.Decoder α} {a : α} (decoded : value v = .ok a) :
    q.decode value = .ok a := by
  rw [decode, h.isJson, if_neg (by decide), if_neg (not_lt.mpr h.fits), h.body]
  simp only [decoded]
  rfl

/-- The data of the answer to a request that reads a path. -/
def ask? (node : NodeId) (c : ControlPlane) (path : String) : Option Json :=
  match (respond node c ⟨"GET", path, none, []⟩).2.body with
  | .json v => v.member? "data"
  | .empty | .text _ => none

/-- What callers read of the directories. -/
def export? (node : NodeId) (c : ControlPlane) : Option Json := do
  let routes ← ask? node c "/api/v1/routes"
  let mappings ← ask? node c "/api/v1/mappings"
  let associations ← ask? node c "/api/v1/associations"
  return .object [("routes", routes), ("mappings", mappings), ("associations", associations)]

theorem ask?_eq {node : NodeId} {c : ControlPlane} {path : String} {action : Action} {v : Json}
    (asks : Action.ofRequest ⟨"GET", path, none, []⟩ = .ok action)
    (told : perform node c ⟨"GET", path, none, []⟩ action = .ok (c, .data v)) :
    ask? node c path = some v := by
  rw [ask?, respond_of_asks asks (by decide : "GET" ≠ "HEAD"), told]
  rfl

/-- Callers read all that is stored. -/
theorem export?_eq (node : NodeId) (c : ControlPlane) :
    export? node c = some c.desired.exported := by
  have routes : ask? node c "/api/v1/routes" =
      some (.array (c.desired.routes.list.map Route.toJson)) := ask?_eq rfl rfl
  have mappings : ask? node c "/api/v1/mappings" =
      some (.array (c.desired.mappings.list.map (mappingView c.desired.mappings))) :=
    ask?_eq rfl rfl
  have associations : ask? node c "/api/v1/associations" =
      some (.array (c.desired.associations.list.map Association.toJson)) := ask?_eq rfl rfl
  rw [export?, routes, mappings, associations]
  rfl

/-! ### What was read is sent -/

variable (node : NodeId) (c : ControlPlane) {q : Request}

/-- What was read of one control plane makes its desired state that of another. -/
theorem respond_exported {d : DesiredState} (h : d.Admitted)
    (posts : q.Posts "/api/v1/sync" d.exported) : respond node c q =
      ({ c with desired := d }, .success (sizesView d)) := by
  rw [respond_sync_of_acceptable node c posts.post posts.path_eq
    (posts.decode_eq_ok d.ofJson_exported) h.acceptable_listing, h.stored_listing, h.sync_listing]

/-- What a request that sends a value changes, and what it is answered. -/
theorem respond_of_posts {path : String} {v answer : Json} {action : Action} {d : DesiredState}
    (posts : q.Posts path v)
    (asks : (Endpoint.ofPath path).map (Action.ofMethod "POST") = some (.ok action))
    (changes : action.changes)
    (changed : changeDesired c.desired q action = .ok (d, .data answer)) :
    respond node c q = ({ c with desired := d }, .success answer) := by
  obtain ⟨endpoint, found, allowed⟩ := Option.map_eq_some_iff.mp asks
  have asks : Action.ofRequest q = .ok action := by
    rw [Action.ofRequest, posts.path_eq, posts.post, found]
    exact allowed
  rw [respond_of_asks asks (by rw [posts.post]; decide), perform, if_pos changes, changed]
  rfl

theorem respond_route {r : Route} (posts : q.Posts "/api/v1/routes" r.toJson) (h : r.Admitted) :
    respond node c q =
      ({ c with desired.routes := c.desired.routes.upsert r }, .success r.toJson) := by
  have accepted : r.accepted = .ok r :=
    Route.accepted_eq_ok_iff.mpr ⟨h.validate_eq_ok, h.stored_eq⟩
  refine respond_of_posts node c posts rfl rfl ?_
  rw [changeDesired, bodyOf, posts.decode_eq_ok r.ofJson_toJson]
  simp only [Except.mapError, bind, Except.bind, accepted]
  rfl

theorem respond_mapping {v : Json} {m : RouteMapping} (posts : q.Posts "/api/v1/mappings" v)
    (decoded : RouteMapping.ofJson v = .ok m) (h : m.Admitted) :
    respond node c q =
      ({ c with desired.mappings := c.desired.mappings.map m }, .success m.toJson) := by
  refine respond_of_posts node c posts rfl rfl ?_
  rw [changeDesired, bodyOf, posts.decode_eq_ok decoded]
  simp only [Except.mapError, bind, Except.bind, RouteMapping.validate_eq_ok_iff.mpr h]
  rfl

theorem respond_association {a : Association} (posts : q.Posts "/api/v1/associations" a.toJson)
    (h : a.Admitted) : respond node c q =
      ({ c with desired.associations := c.desired.associations.upsert a }, .success a.toJson) := by
  refine respond_of_posts node c posts rfl rfl ?_
  rw [changeDesired, bodyOf, posts.decode_eq_ok a.ofJson_toJson]
  simp only [Except.mapError, bind, Except.bind, Association.validate_eq_ok_iff.mpr h]
  rfl

variable {c}

/-- A control plane that is sent what was read of it answers that it is stored, and stays as it
is. -/
theorem respond_restates (h : c.desired.Admitted) {path : String} {v : Json}
    (restates : c.desired.Restates path v) (posts : q.Posts path v) :
    (respond node c q).2.status = 200 ∧ (respond node c q).1 = c := by
  cases restates with
  | everything =>
    rw [respond_exported node c h posts]
    exact ⟨rfl, rfl⟩
  | route stored =>
    rw [respond_route node c posts (h.route stored), h.upsert_route stored]
    exact ⟨rfl, rfl⟩
  | mapping stored =>
    rw [respond_mapping node c posts (RouteMapping.ofJson_toJson _) (h.mapping stored),
      h.map_mapping stored]
    exact ⟨rfl, rfl⟩
  | view stored =>
    rw [respond_mapping node c posts (ofJson_mappingView _ _) (h.mapping stored),
      h.map_mapping stored]
    exact ⟨rfl, rfl⟩
  | association stored =>
    rw [respond_association node c posts (h.association stored),
      DesiredState.Admitted.upsert_association stored]
    exact ⟨rfl, rfl⟩

end Api

/-! ## Pipelines -/

namespace Pipeline

/-- Requests that send what was read change nothing. -/
theorem run_restating {p : Pipeline} (h : p.Sound) (told : NodeId) {requests : List Api.Request}
    (restate : ∀ q ∈ requests, ∃ path v, p.plane.desired.Restates path v ∧ q.Posts path v) :
    p.run told (requests.map .request) = p := by
  induction requests with
  | nil => rfl
  | cons q requests ih =>
    obtain ⟨⟨path, v, restates, posts⟩, others⟩ := List.forall_mem_cons.mp restate
    have unchanged : p.step told (.request q) = p := by
      rw [step, (Api.respond_restates told h.admitted restates posts).2]
    rw [run, List.map_cons, List.foldl_cons, unchanged]
    exact ih others

/-- What callers read of a control plane, at any time after nothing was stated, brings back its
desired state: sent to any control plane, in whatever words, it is taken, and the desired state
there is then the same, with all that is kept beside the stored values, so that every question is
answered alike, and the same records are collected for the same backends. Sent to the control plane
itself it changes nothing, nor does any stored value, also one with its share. After a tick that the
sink does not refuse and any such requests the next tick has nothing to offer. -/
theorem export_restores {start : Pipeline} (fresh : start.Fresh) (told : NodeId)
    (steps : List Step) :
    let p := start.run told steps
    let d := p.plane.desired
    Api.export? told p.plane = some d.exported ∧
    ((Utf8.encode d.exported.text).length ≤ Api.maxBody →
      (Api.Request.posting "/api/v1/sync" d.exported).Posts "/api/v1/sync" d.exported) ∧
    (∀ node b q, q.Posts "/api/v1/sync" d.exported →
      (Api.respond node b q).2.status = 200 ∧ (Api.respond node b q).1 = { b with desired := d }) ∧
    (∀ path v q, d.Restates path v → q.Posts path v →
      (Api.respond told p.plane q).2.status = 200 ∧ (Api.respond told p.plane q).1 = p.plane) ∧
    (¬ p.tick.2.refused → ∀ requests : List Api.Request,
      (∀ q ∈ requests, ∃ path v, d.Restates path v ∧ q.Posts path v) →
        (p.tick.1.run told (requests.map .request)).tick.2 = .unchanged) := by
  intro p d
  have sound : p.Sound := fresh.sound.run told steps
  refine ⟨Api.export?_eq told p.plane, Api.Request.posts_posting _ d.plain_exported,
    fun node b q posts => ?_, fun path v q => Api.respond_restates told sound.admitted,
    fun taken requests restate => ?_⟩
  · rw [Api.respond_exported node b sound.admitted posts]
    exact ⟨rfl, rfl⟩
  · rw [run_restating sound.tick told (by rwa [desired_tick])]
    exact tick_unchanged taken rfl p.inputs_tick

set_option maxRecDepth 4000 in
/-- Two routes are read and sent to another control plane, and to their own after a tick. -/
theorem export_restores_two_routes :
    let p := blank.run "default" (twoRoutesSteps "127.1.1.3" "127.2.2.3")
    let q := Api.Request.posting "/api/v1/sync" p.plane.desired.exported
    blank.Fresh ∧ ¬ p.tick.2.refused ∧ q.Posts "/api/v1/sync" p.plane.desired.exported ∧
      (Api.respond "elsewhere" (.init 22) q).1.desired = twoRoutes "127.1.1.3" "127.2.2.3" ∧
      (p.tick.1.run "default" [.request q]).tick.2 = .unchanged := by
  intro p q
  have stated : p.plane.desired = twoRoutes "127.1.1.3" "127.2.2.3" := by decide +kernel
  have fits : (Utf8.encode p.plane.desired.exported.text).length ≤ Api.maxBody := by
    rw [stated]
    decide +kernel
  have taken : ¬ p.tick.2.refused := not_refused_tick rfl
  obtain ⟨-, sends, elsewhere, -, quiet⟩ :=
    export_restores fresh_blank "default" (twoRoutesSteps "127.1.1.3" "127.2.2.3")
  have posts : q.Posts "/api/v1/sync" p.plane.desired.exported := sends fits
  refine ⟨fresh_blank, taken, posts, ?_, quiet taken [q] ?_⟩
  · rw [(elsewhere "elsewhere" (.init 22) q posts).2]
    exact stated
  · exact List.forall_mem_singleton.mpr ⟨_, _, .everything, posts⟩

end Pipeline

end MeshControl
