import MeshControl.Instance

/-!
# Notices of change

The scheduler tells about instances that appear, change or go away.

## Main definitions

* `InstanceEvent` — a notice, with its written form.
* `InstanceEvent.processId` — the process it concerns.
-/

namespace MeshControl

inductive InstanceEvent where
  | created (i : Instance)
  | changed (before after : Instance)
  | removed (i : Instance)
  deriving DecidableEq, Inhabited

namespace InstanceEvent

def processId : InstanceEvent → SchedulerId
  | created i | removed i => i.processId
  | changed _ after => after.processId

/-! ## Written form -/

def toJson : InstanceEvent → Json
  | created i => .object [("type", .string "created"), ("instance", i.toJson)]
  | changed before after =>
    .object [("type", .string "changed"), ("before", before.toJson), ("after", after.toJson)]
  | removed i => .object [("type", .string "removed"), ("instance", i.toJson)]

def bodyOfJson (type : String) : Json.Decoder InstanceEvent :=
  if type = "created" then
    Json.record ["instance"] fun r => created <$> r.required "instance" Instance.ofNotice
  else if type = "changed" then
    Json.record ["before", "after"] fun r =>
      changed <$> r.required "before" Instance.ofNotice <*> r.required "after" Instance.ofNotice
  else if type = "removed" then
    Json.record ["instance"] fun r => removed <$> r.required "instance" Instance.ofNotice
  else fun _ => .error .shape

def maxDepth : Nat := 127

/-- The type of a notice and what is beside it. In an array the type stands first. -/
def split? : Json → Option (String × Json)
  | .object members =>
    match members.filter (·.1 = "type") with
    | [(_, .string type)] => some (type, .object (members.filter (·.1 ≠ "type")))
    | _ => none
  | .array (.string type :: items) => some (type, .array items)
  | _ => none

/-- A notice is read whole before its type is known, so the values of members that are not known
have to be JSON as well, and bounded in depth. -/
def ofJson : Json.Decoder InstanceEvent := fun v =>
  match v with
  | .object _ | .array _ =>
    if !v.fits maxDepth || !v.isWhole then .error .malformed
    else (split? v).elim (.error .shape) fun (type, body) => bodyOfJson type body
  | v => .error (Json.mismatch v)

end InstanceEvent

end MeshControl
