import MeshControl.Api.Response
import MeshControl.Mapping.Basic
import MeshControl.Route.Basic
import MeshControl.Text.Percent
import MeshControl.Text.Utf8

/-!
# Endpoints

The paths that are served, each with the methods that it allows.

## Main definitions

* `Api.Endpoint` — a path with its variable parts.
* `Api.Endpoint.ofPath` — the endpoint of a path.
* `Api.Action` — an endpoint with a method that it allows.
* `Api.Action.ofRequest` — what a request asks for.
-/

namespace MeshControl.Api

/-- A path, with its variable parts as they are sent. -/
inductive Endpoint where
  | routes
  | route (id : String)
  | mappings
  | mapping (route process : String)
  | associations
  | association (process : String)
  | sync
  | backends
  | vip (hostname : String)
  | snapshot
  | health
  deriving DecidableEq, Inhabited

namespace Endpoint

def ofParts : List String → Option Endpoint
  | ["routes"] => some .routes
  | ["routes", id] => some (.route id)
  | ["mappings"] => some .mappings
  | ["mappings", routePart, processPart] => some (.mapping routePart processPart)
  | ["associations"] => some .associations
  | ["associations", process] => some (.association process)
  | ["sync"] => some .sync
  | ["backends"] => some .backends
  | ["vips", hostname] => some (.vip hostname)
  | ["snapshot"] => some .snapshot
  | _ => none

/-- The endpoint of a path. A variable part is never empty. -/
def ofPath (path : String) : Option Endpoint :=
  match Text.split '/' path with
  | ["", "healthz"] => some .health
  | "" :: "api" :: "v1" :: parts => if parts.contains "" then none else ofParts parts
  | _ => none

end Endpoint

/-- What a request asks for. -/
inductive Action where
  | listRoutes
  | getRoute (id : RouteId)
  | putRoute
  | deleteRoute (id : RouteId)
  | listMappings
  | putMapping
  | deleteMapping (key : MappingKey)
  | listAssociations
  | putAssociation
  | deleteAssociation (id : ProcessId)
  | sync
  | listBackends
  | getVip (hostname : String)
  | getSnapshot
  | getHealth
  deriving DecidableEq, Inhabited

namespace Action

def decodePart (part : String) : Except Refusal String :=
  match Utf8.decode? (Percent.decode (Utf8.encode part)) with
  | some s => .ok s
  | none => .error .undecodablePath

/-- The action on an endpoint. A method that only asks for the head of an answer is allowed where
the one for the whole answer is. -/
def ofMethod (method : String) : Endpoint → Except Refusal Action
  | .routes =>
    if isGet then .ok .listRoutes else if method = "POST" then .ok .putRoute else refuse
  | .route id =>
    if isGet then getRoute <$> decodePart id
    else if method = "DELETE" then deleteRoute <$> decodePart id
    else refuse
  | .mappings =>
    if isGet then .ok .listMappings else if method = "POST" then .ok .putMapping else refuse
  | .mapping routePart processPart =>
    if method = "DELETE" then
      (fun r p => deleteMapping ⟨r, p⟩) <$> decodePart routePart <*> decodePart processPart
    else refuse
  | .associations =>
    if isGet then .ok .listAssociations
    else if method = "POST" then .ok .putAssociation
    else refuse
  | .association process =>
    if method = "DELETE" then deleteAssociation <$> decodePart process else refuse
  | .sync => if method = "POST" then .ok .sync else refuse
  | .backends => if isGet then .ok .listBackends else refuse
  | .vip hostname => if isGet then getVip <$> decodePart hostname else refuse
  | .snapshot => if isGet then .ok .getSnapshot else refuse
  | .health => if isGet then .ok .getHealth else refuse
where
  isGet : Bool := method = "GET" || method = "HEAD"
  refuse : Except Refusal Action := .error .wrongMethod

def ofRequest (r : Request) : Except Refusal Action :=
  match Endpoint.ofPath r.path with
  | none => .error .unknownPath
  | some endpoint => ofMethod r.method endpoint

end Action

end MeshControl.Api
