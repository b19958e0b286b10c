import MeshControl.Api.Endpoint
import MeshControl.Api.Sync
import MeshControl.ControlPlane

/-!
# The service

Callers state routes, mappings and associations, and read back what was stated, what is live and
what was published.

## Main definitions

* `Api.perform` — the effect and the data of an action.
* `Api.respond` — the effect of a request, and its answer.
-/

namespace MeshControl

namespace DesiredState

/-- Replace the sections that are given. -/
def sync (d : DesiredState) (q : SyncRequest) : DesiredState where
  routes := q.routes.elim d.routes d.routes.sync
  mappings := q.mappings.elim d.mappings d.mappings.sync
  associations := q.associations.elim d.associations d.associations.sync

end DesiredState

namespace Api

/-- What a handler answers with. -/
inductive Answer where
  | data (v : Json)
  | text (s : String)
  deriving DecidableEq, Inhabited

/-! ## Views -/

/-- A mapping with its share in the requests of its route. -/
def mappingView (d : RouteMapping.Directory) (m : RouteMapping) : Json :=
  .object (m.members ++ [("calculated_weight", .ofNat (d.share m).toNat)])

def backendView (e : SchedulerId × BackendSet × BackendSet) : Json :=
  .object
    [("scheduler_process_id", .string e.1), ("backends", e.2.1.toJson),
     ("internal_backends", e.2.2.toJson)]

def vipView (hostname vip : String) : Json :=
  .object [("hostname", .string (Route.Directory.lookupName hostname)), ("vip", .string vip)]

/-- The snapshot of a node. The time of its making stands at zero, since no clock is read. -/
def snapshotView (node : NodeId) (s : Snapshot) : Json :=
  .object
    [("node_id", .string node), ("created_at", .ofNat 0), ("versions", s.versionsJson),
     ("kinds", s.kindsJson)]

def sizesView (d : DesiredState) : Json :=
  .object
    [("routes", .ofNat d.routes.size), ("mappings", .ofNat d.mappings.size),
     ("associations", .ofNat d.associations.size)]

/-! ## Actions -/

def bodyOf {α : Type} (r : Request) (value : Json.Decoder α) : Except Refusal α :=
  (r.decode value).mapError .badBody

/-- Something that was asked for, or the refusal that names it. -/
def found {α : Type} (what : String) : Option α → Except Refusal α
  | some a => .ok a
  | none => .error (.notFound what)

def deleted : Answer := .data (.string "deleted")

/-- The effect of an action on the desired state. -/
def changeDesired (d : DesiredState) (request : Request) :
    Action → Except Refusal (DesiredState × Answer)
  | .putRoute => do
    let r ← (Route.accepted (← bodyOf request Route.ofJson)).mapError .invalid
    return ({ d with routes := d.routes.upsert r }, .data r.toJson)
  | .deleteRoute id => return ({ d with routes := d.routes.delete id }, deleted)
  | .putMapping => do
    let m ← bodyOf request RouteMapping.ofJson
    m.validate.mapError .invalid
    return ({ d with mappings := d.mappings.map m }, .data m.toJson)
  | .deleteMapping key => return ({ d with mappings := d.mappings.unmap key }, deleted)
  | .putAssociation => do
    let a ← bodyOf request Association.ofJson
    a.validate.mapError .invalid
    return ({ d with associations := d.associations.upsert a }, .data a.toJson)
  | .deleteAssociation id =>
    return ({ d with associations := d.associations.delete id }, deleted)
  | .sync => do
    let q ← (SyncRequest.accepted (← bodyOf request SyncRequest.ofJson)).mapError .invalid
    return (d.sync q, .data (sizesView (d.sync q)))
  | _ => .error .wrongMethod

def read (node : NodeId) (c : ControlPlane) : Action → Except Refusal Answer
  | .listRoutes => return .data (.array (c.desired.routes.list.map Route.toJson))
  | .getRoute id => do
    return .data (← found s!"route {id}" (c.desired.routes.get? id)).toJson
  | .listMappings =>
    return .data (.array (c.desired.mappings.list.map (mappingView c.desired.mappings)))
  | .listAssociations =>
    return .data (.array (c.desired.associations.list.map Association.toJson))
  | .listBackends => return .data (.array (c.backends.list.map backendView))
  | .getVip hostname => do
    return .data (vipView hostname
      (← found s!"vip for {hostname}" (c.desired.routes.vipOf? hostname)))
  | .getSnapshot => do
    return .data (snapshotView node
      (← found s!"snapshot for node {node}" (c.snapshots.get? node)))
  | .getHealth => return .text "ok"
  | _ => .error .wrongMethod

def Action.changes : Action → Bool
  | .putRoute | .deleteRoute _ | .putMapping | .deleteMapping _ | .putAssociation
  | .deleteAssociation _ | .sync => true
  | .listRoutes | .getRoute _ | .listMappings | .listAssociations | .listBackends | .getVip _
  | .getSnapshot | .getHealth => false

/-- The effect and the answer of an action. A refused one has no effect. -/
def perform (node : NodeId) (c : ControlPlane) (request : Request) (action : Action) :
    Except Refusal (ControlPlane × Answer) :=
  if action.changes then
    (changeDesired c.desired request action).map fun x => ({ c with desired := x.1 }, x.2)
  else (read node c action).map (c, ·)

/-! ## Requests -/

def Answer.response : Answer → Response
  | .data v => .success v
  | .text s => ⟨200, .text s⟩

def handle (node : NodeId) (c : ControlPlane) (request : Request) : ControlPlane × Response :=
  match (Action.ofRequest request).bind (perform node c request) with
  | .ok (c', answer) => (c', answer.response)
  | .error refusal => (c, .ofRefusal refusal)

/-- The effect of a request, and its answer, of which some callers want the head alone. -/
def respond (node : NodeId) (c : ControlPlane) (request : Request) : ControlPlane × Response :=
  let (c', response) := handle node c request
  (c', if request.method = "HEAD" then response.withoutBody else response)

/-! ## Laws -/

theorem handle_of_refused {node : NodeId} {c : ControlPlane} {request : Request}
    (h : 400 ≤ (handle node c request).2.status) : (handle node c request).1 = c := by
  unfold handle at h ⊢
  split
  · rename_i c' answer _
    cases answer <;> simp_all [Answer.response, Response.success]
  · rfl

end Api

end MeshControl
