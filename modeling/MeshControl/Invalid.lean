import MeshControl.Text.Quoted

/-!
# Refusals of desired state

Why a route, a mapping or an association that a caller sends is not taken.

## Main definitions

* `Invalid` — the causes.
* `Invalid.subject`, `Invalid.message` — what was refused, and the sentence that tells why.
-/

namespace MeshControl

/-- What a caller may be refused. -/
inductive Subject where
  | route
  | mapping
  | association
  deriving DecidableEq, Inhabited

/-- Why something is refused. -/
inductive Invalid where
  /-- A route without an id or a host. -/
  | routeUnnamed
  /-- A path that does not begin with a slash. -/
  | relativePath (path : String)
  /-- A mapping without a route id or a process id. -/
  | mappingUnnamed
  /-- A weight outside the bounds. -/
  | weight (got : UInt32)
  /-- An association without a process id or without scheduler ids. -/
  | associationUnnamed
  /-- An association with a scheduler id that is empty. -/
  | emptySchedulerId
  deriving DecidableEq, Inhabited

namespace Invalid

def minWeight : UInt32 := 1

def maxWeight : UInt32 := 128

def subject : Invalid → Subject
  | routeUnnamed | relativePath _ => .route
  | mappingUnnamed | weight _ => .mapping
  | associationUnnamed | emptySchedulerId => .association

def detail : Invalid → String
  | routeUnnamed => "route id and host are required"
  | relativePath path => s!"path {Text.quote path} must start with '/'"
  | mappingUnnamed => "route id and process id are required"
  | weight got =>
    s!"weight must be between {minWeight.toNat} and {maxWeight.toNat}, got {got.toNat}"
  | associationUnnamed => "process id and scheduler process ids are required"
  | emptySchedulerId => "scheduler process ids must not be empty"

def message (e : Invalid) : String :=
  match e.subject with
  | .route => s!"invalid route: {e.detail}"
  | .mapping => s!"invalid route mapping: {e.detail}"
  | .association => s!"invalid process association: {e.detail}"

end Invalid

end MeshControl
