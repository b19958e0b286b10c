import Mathlib
import MeshControl.Api.Service
import MeshControl.Proofs.Checks

/-!
# What requests bring about

A request is for one action, whose effect and answer are those of the request. The methods that only
read bring nothing about.

## Main statements

* `Api.respond_of_asks` — a request does what it asks for.
* `Api.respond_of_reads` — reading changes nothing.
-/

namespace MeshControl.Api

variable {node : NodeId} {c : ControlPlane} {q : Request}

/-- A request has the effect and the answer of the action that it asks for. -/
theorem respond_of_asks {action : Action} (asks : Action.ofRequest q = .ok action)
    (whole : q.method ≠ "HEAD") : respond node c q =
      match perform node c q action with
      | .ok (c', answer) => (c', answer.response)
      | .error refusal => (c, .ofRefusal refusal) := by
  have handled : respond node c q = handle node c q := Prod.ext rfl (if_neg whole)
  have effect : (Action.ofRequest q).bind (perform node c q) = perform node c q action := by
    rw [asks]
    rfl
  rw [handled, handle]
  generalize (Action.ofRequest q).bind (perform node c q) = outcome at effect ⊢
  subst effect
  rfl

/-- A request that is refused changes nothing. -/
theorem respond_of_refused (refused : 400 ≤ (respond node c q).2.status) :
    (respond node c q).1 = c := by
  refine handle_of_refused (le_of_le_of_eq refused ?_)
  change (if _ then _ else _ : Response).status = _
  split_ifs <;> rfl

/-! ## Reading -/

namespace Action

theorem changes_of_decodePart {part : String} {make : String → Action} {action : Action}
    (reads : ∀ s, (make s).changes = false) (h : make <$> decodePart part = .ok action) :
    action.changes = false := by
  obtain ⟨s, -, rfl⟩ := map_eq_ok_iff.mp h
  exact reads s

/-- The methods that read ask for no change. -/
theorem changes_of_reads {method : String} (reads : method = "GET" ∨ method = "HEAD")
    {endpoint : Endpoint} {action : Action} (h : ofMethod method endpoint = .ok action) :
    action.changes = false := by
  have get : ofMethod.isGet method = true := by
    rcases reads with rfl | rfl <;> rfl
  have noPost : method ≠ "POST" := by
    rcases reads with rfl | rfl <;> decide
  have noDelete : method ≠ "DELETE" := by
    rcases reads with rfl | rfl <;> decide
  cases endpoint <;> simp only [ofMethod, get, noPost, noDelete, if_true, if_false] at h
  case route id => exact changes_of_decodePart (fun _ => rfl) h
  case vip hostname => exact changes_of_decodePart (fun _ => rfl) h
  all_goals cases h
  all_goals rfl

end Action

/-- Reading changes nothing. -/
theorem respond_of_reads (reads : q.method = "GET" ∨ q.method = "HEAD") :
    (respond node c q).1 = c := by
  have effect : (respond node c q).1 = (handle node c q).1 := rfl
  rw [effect, handle]
  cases asks : Action.ofRequest q with
  | error refusal => rfl
  | ok action =>
    have constant : action.changes = false := by
      rw [Action.ofRequest] at asks
      cases path : Endpoint.ofPath q.path with
      | none =>
        rw [path] at asks
        cases asks
      | some endpoint =>
        rw [path] at asks
        exact Action.changes_of_reads reads asks
    rw [Except.bind, perform, constant]
    cases h : read node c action <;> simp [Except.map]

end MeshControl.Api
