import MeshControl.Invalid
import MeshControl.Json.Decode
import MeshControl.Route.Basic

/-!
# Mappings of routes to processes

A mapping sends a share of a route's requests to a routing process. The share is its weight
among those of all mappings of the route.

## Main definitions

* `MappingKey` — a route and a process, ordered by the route first.
* `RouteMapping` — a mapping, with its written form.
* `RouteMapping.validate` — whether it can be taken.
-/

namespace MeshControl

open Std

abbrev ProcessId := String

/-- What a mapping is stored under. -/
structure MappingKey where
  routeId : RouteId
  processId : ProcessId
  deriving DecidableEq, Inhabited

namespace MappingKey

/-- Keys are compared by route, and those of one route by process. -/
instance : Ord MappingKey :=
  ⟨compareLex (compareOn routeId) (compareOn processId)⟩

instance : TransOrd MappingKey :=
  inferInstanceAs (TransCmp (compareLex (compareOn routeId) (compareOn processId)))

instance : LawfulEqOrd MappingKey where
  compare_self {_} :=
    @ReflCmp.compare_self _ (compareLex (compareOn routeId) (compareOn processId)) _ _
  eq_of_compare {a b} h := by
    have h' : (compare a.routeId b.routeId).then (compare a.processId b.processId) = .eq := h
    rw [Ordering.then_eq_eq] at h'
    cases a
    cases b
    simp only [LawfulEqCmp.compare_eq_iff_eq] at h'
    simp [h'.1, h'.2]

def toJson (k : MappingKey) : Json :=
  .object [("route_id", .string k.routeId), ("process_id", .string k.processId)]

def ofJson : Json.Decoder MappingKey :=
  Json.record ["route_id", "process_id"] fun r =>
    MappingKey.mk <$> r.required "route_id" Json.asString <*> r.required "process_id" Json.asString

end MappingKey

structure RouteMapping where
  routeId : RouteId
  processId : ProcessId
  weight : UInt32
  deriving DecidableEq, Inhabited

namespace RouteMapping

def key (m : RouteMapping) : MappingKey := ⟨m.routeId, m.processId⟩

def validate (m : RouteMapping) : Except Invalid Unit :=
  if m.routeId = "" ∨ m.processId = "" then .error .mappingUnnamed
  else if Invalid.minWeight ≤ m.weight ∧ m.weight ≤ Invalid.maxWeight then .ok ()
  else .error (.weight m.weight)

/-! ## Written form -/

def members (m : RouteMapping) : List (String × Json) :=
  [("route_id", .string m.routeId), ("process_id", .string m.processId),
   ("weight", .ofNat m.weight.toNat)]

def toJson (m : RouteMapping) : Json := .object m.members

def ofJson : Json.Decoder RouteMapping :=
  Json.record ["route_id", "process_id", "weight"] fun r =>
    RouteMapping.mk <$> r.required "route_id" Json.asString
      <*> r.required "process_id" Json.asString <*> r.required "weight" Json.asWord

end RouteMapping

end MeshControl
