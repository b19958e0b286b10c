import MeshControl.Json.Decode

/-!
# Backends

A backend is an address and a port where a process answers, with the port it listens on inside
its container. A backend set is kept in the order of insertion, and tells its elements apart by
address and port alone.

## Main definitions

* `Backend` — a backend, with its order and its written form.
* `BackendSet.insert`, `BackendSet.remove`, `BackendSet.ofList`.
* `BackendSet.inserts`, `BackendSet.removes` — whether something changed.
-/

namespace MeshControl

open Std

structure Backend where
  address : String
  port : UInt16
  containerPort : UInt16
  deriving DecidableEq, Inhabited

namespace Backend

/-- Backends are compared by address, then by port, then by container port. -/
def cmp : Backend → Backend → Ordering :=
  compareLex (compareOn address) (compareLex (compareOn port) (compareOn containerPort))

instance : Ord Backend := ⟨cmp⟩

instance : TransOrd Backend := inferInstanceAs (TransCmp
  (compareLex (compareOn address) (compareLex (compareOn port) (compareOn containerPort))))

instance : LawfulEqOrd Backend where
  compare_self {_} := @ReflCmp.compare_self _
    (compareLex (compareOn address) (compareLex (compareOn port) (compareOn containerPort))) _ _
  eq_of_compare {a b} h := by
    have h' : (compare a.address b.address).then
        ((compare a.port b.port).then (compare a.containerPort b.containerPort)) = .eq := h
    simp only [Ordering.then_eq_eq, LawfulEqCmp.compare_eq_iff_eq] at h'
    cases a
    cases b
    simp only at h'
    simp [h'.1, h'.2.1, h'.2.2]

def sameEndpoint (a b : Backend) : Bool := a.address = b.address && a.port = b.port

def endpoint (b : Backend) : String := s!"{b.address}:{b.port.toNat}"

theorem sameEndpoint_iff {a b : Backend} :
    a.sameEndpoint b ↔ a.address = b.address ∧ a.port = b.port := by
  simp [sameEndpoint]

/-! ## Written form -/

def toJson (b : Backend) : Json :=
  .object [("address", .string b.address), ("port", .ofNat b.port.toNat),
    ("container_port", .ofNat b.containerPort.toNat)]

def ofJson : Json.Decoder Backend :=
  Json.record ["address", "port", "container_port"] fun r =>
    Backend.mk <$> r.required "address" Json.asString <*> r.required "port" Json.asPort
      <*> r.required "container_port" Json.asPort

end Backend

/-- Backends in the order of their insertion. -/
structure BackendSet where
  toList : List Backend
  deriving DecidableEq, Inhabited

namespace BackendSet

def empty : BackendSet := ⟨[]⟩

instance : EmptyCollection BackendSet := ⟨empty⟩

def hasEndpoint (s : BackendSet) (b : Backend) : Bool := s.toList.any (·.sameEndpoint b)

/-- Append a backend, unless one with its address and port is there. -/
def insert (s : BackendSet) (b : Backend) : BackendSet :=
  if s.hasEndpoint b then s else ⟨s.toList ++ [b]⟩

/-- Drop the backends with the address and port of a given one. -/
def remove (s : BackendSet) (b : Backend) : BackendSet :=
  ⟨s.toList.filter fun x => !x.sameEndpoint b⟩

def inserts (s : BackendSet) (b : Backend) : Bool := !s.hasEndpoint b

/-- Whether a removal changes the set. It does if it leaves another number of backends. -/
def removes (s : BackendSet) (b : Backend) : Bool :=
  (s.remove b).toList.length ≠ s.toList.length

def ofList (l : List Backend) : BackendSet := l.foldl insert empty

def size (s : BackendSet) : Nat := s.toList.length

def isEmpty (s : BackendSet) : Bool := s.toList.isEmpty

def endpoints (s : BackendSet) : List String := s.toList.map Backend.endpoint

/-! ## Written form -/

def toJson (s : BackendSet) : Json := .array (s.toList.map Backend.toJson)

/-- A list that is read is taken as it is, with what it repeats. -/
def ofJson : Json.Decoder BackendSet := fun v => BackendSet.mk <$> Json.asList Backend.ofJson v

/-! ## Laws -/

@[simp] theorem toList_empty : (empty : BackendSet).toList = [] := rfl

theorem toList_insert (s : BackendSet) (b : Backend) :
    (s.insert b).toList = if s.hasEndpoint b then s.toList else s.toList ++ [b] := by
  simp only [insert]
  split <;> rfl

@[simp] theorem toList_remove (s : BackendSet) (b : Backend) :
    (s.remove b).toList = s.toList.filter fun x => !x.sameEndpoint b := rfl

theorem hasEndpoint_insert_self (s : BackendSet) (b : Backend) :
    (s.insert b).hasEndpoint b = true := by
  simp only [insert]
  split
  · assumption
  · simp [hasEndpoint, Backend.sameEndpoint]

theorem hasEndpoint_remove_self (s : BackendSet) (b : Backend) :
    (s.remove b).hasEndpoint b = false := by
  simp [hasEndpoint]

end BackendSet

end MeshControl
