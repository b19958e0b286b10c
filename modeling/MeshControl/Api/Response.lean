import MeshControl.Api.Request
import MeshControl.Invalid

/-!
# Responses

An answer has a status, and a body unless the request is refused before it is looked at.

## Main definitions

* `Api.Response`, `Api.Refusal` — answers, and reasons to refuse a request.
* `Api.Response.success`, `Api.Response.ofRefusal`.
-/

namespace MeshControl.Api

inductive Body where
  | empty
  | text (s : String)
  | json (v : Json)
  deriving DecidableEq, Inhabited

structure Response where
  status : Nat
  body : Body
  deriving DecidableEq, Inhabited

/-- Why a request is refused. -/
inductive Refusal where
  | unknownPath
  | wrongMethod
  /-- A part of the path is not text. -/
  | undecodablePath
  | badBody (fault : BodyFault)
  | invalid (cause : Invalid)
  /-- What was asked for is not there. -/
  | notFound (what : String)
  deriving DecidableEq, Inhabited

namespace Refusal

def status : Refusal → Nat
  | unknownPath => 404
  | wrongMethod => 405
  | undecodablePath => 400
  | badBody .mediaType => 415
  | badBody .tooLarge => 413
  | badBody .malformed => 400
  | badBody .shape => 422
  | invalid _ => 400
  | notFound _ => 404

/-- The sentence that a refusal is answered with, if there is one. -/
def message? : Refusal → Option String
  | invalid cause => some cause.message
  | notFound what => some s!"{what} not found"
  | unknownPath | wrongMethod | undecodablePath | badBody _ => none

theorem le_status (r : Refusal) : 400 ≤ r.status := by
  cases r with
  | badBody fault => cases fault <;> simp [status]
  | _ => simp [status]

end Refusal

namespace Response

def success (data : Json) : Response :=
  ⟨200, .json (.object [("success", .bool true), ("data", data)])⟩

def ofRefusal (r : Refusal) : Response where
  status := r.status
  body :=
    match r.message? with
    | none => .empty
    | some message => .json (.object [("success", .bool false), ("error", .string message)])

def withoutBody (r : Response) : Response := { r with body := .empty }

end Response

end MeshControl.Api
