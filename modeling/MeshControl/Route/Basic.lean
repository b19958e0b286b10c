import MeshControl.Invalid
import MeshControl.Json.Decode
import MeshControl.Text.Ascii

/-!
# Routes

A route says that requests for a host name, and perhaps a path prefix, are served by the
processes that are mapped to it. An internal route is reachable from inside the mesh only, at a
virtual address.

## Main definitions

* `Route` — a route as a caller states it.
* `Route.hostname`, `Route.pathPrefix`, `Route.isInternal` — what it stands for.
* `Route.validate` — whether it can be taken.
* `Route.toJson`, `Route.ofJson` — its written form.
-/

namespace MeshControl

abbrev RouteId := String

/-- The suffix that makes every host name below it internal. -/
def internalDomain : String := ".apps.internal"

structure Route where
  id : RouteId
  host : String
  path : Option String
  internal : Bool
  vip : Option String
  deriving DecidableEq, Inhabited

namespace Route

/-- The host name in lower case. -/
def hostname (r : Route) : String := Text.lower r.host

/-- The path prefix, unless it is empty. -/
def pathPrefix (r : Route) : Option String := r.path.filter (· ≠ "")

/-- Whether the route is marked internal or its host name lies in the internal domain. -/
def isInternal (r : Route) : Bool := r.internal || Text.hasSuffix internalDomain r.hostname

def validate (r : Route) : Except Invalid Unit :=
  if r.id = "" ∨ r.host = "" then .error .routeUnnamed
  else
    match r.pathPrefix with
    | some path => if Text.hasPrefix "/" path then .ok () else .error (.relativePath path)
    | none => .ok ()

/-! ## Written form -/

def toJson (r : Route) : Json :=
  .object (Json.present
    [("id", some (.string r.id)),
     ("host", some (.string r.host)),
     ("path", r.path.map .string),
     ("internal", some (.bool r.internal)),
     ("vip", r.vip.map .string)])

def ofJson : Json.Decoder Route :=
  Json.record ["id", "host", "path", "internal", "vip"] fun r =>
    Route.mk <$> r.required "id" Json.asString <*> r.required "host" Json.asString
      <*> r.optional "path" Json.asString <*> r.withDefault "internal" false Json.asBool
      <*> r.optional "vip" Json.asString

end Route

end MeshControl
