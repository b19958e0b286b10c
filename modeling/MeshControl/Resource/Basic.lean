import MeshControl.Json.Decode

/-!
# Mesh resources

The configuration of the mesh consists of resources of five kinds. A resource is published under
a name, with a body that is written as JSON.

## Main definitions

* `ResourceKind` — the kinds, in the order in which they are listed everywhere.
* `Resource` — a name and a body.
-/

namespace MeshControl

inductive ResourceKind where
  | gateway
  | virtualService
  | destinationRule
  | serviceEntry
  | sidecar
  deriving DecidableEq, Inhabited

namespace ResourceKind

def all : List ResourceKind := [gateway, virtualService, destinationRule, serviceEntry, sidecar]

theorem mem_all (k : ResourceKind) : k ∈ all := by
  cases k <;> simp [all]

def name : ResourceKind → String
  | gateway => "gateway"
  | virtualService => "virtual_service"
  | destinationRule => "destination_rule"
  | serviceEntry => "service_entry"
  | sidecar => "sidecar"

/-- The name of the collection that proxies subscribe to. -/
def collection : ResourceKind → String
  | gateway => "istio/networking/v1alpha3/gateways"
  | virtualService => "istio/networking/v1alpha3/virtualservices"
  | destinationRule => "istio/networking/v1alpha3/destinationrules"
  | serviceEntry => "istio/networking/v1alpha3/serviceentries"
  | sidecar => "istio/networking/v1alpha3/sidecars"

def ofJson : Json.Decoder ResourceKind := Json.asWordOf (all.map fun k => (k.name, k))

/-- The place of a kind among all kinds. -/
def rank : ResourceKind → Nat
  | gateway => 0
  | virtualService => 1
  | destinationRule => 2
  | serviceEntry => 3
  | sidecar => 4

instance : Ord ResourceKind := ⟨compareOn rank⟩

instance : Std.TransOrd ResourceKind := inferInstanceAs (Std.TransCmp (compareOn rank))

instance : Std.LawfulEqOrd ResourceKind where
  compare_self {_} := @Std.ReflCmp.compare_self _ (compareOn rank) _ _
  eq_of_compare {a b} h := by
    have h' : compare a.rank b.rank = .eq := h
    rw [Std.LawfulEqCmp.compare_eq_iff_eq] at h'
    cases a <;> cases b <;> simp [rank] at h' ⊢

end ResourceKind

structure Resource where
  name : String
  body : Json
  deriving DecidableEq, Inhabited

namespace Resource

def toJson (r : Resource) : Json := .object [("name", .string r.name), ("body", r.body)]

/-- Any JSON is a body. -/
def bodyOfJson : Json.Decoder Json := fun v => if v.isWhole then .ok v else .error .malformed

def ofJson : Json.Decoder Resource :=
  Json.record ["name", "body"] fun r =>
    Resource.mk <$> r.required "name" Json.asString <*> r.required "body" bodyOfJson

end Resource

end MeshControl
