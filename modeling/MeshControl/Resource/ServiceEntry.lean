import MeshControl.Resource.Labels

/-!
# Service entries

The live endpoints of a host name, with the ports they serve.

## Main definitions

* `ServiceEntry`, `ServiceEntry.Endpoint` — with their written forms.
-/

namespace MeshControl

namespace ServiceEntry

/-- Where the endpoints are. -/
inductive Location where
  | meshInternal
  deriving DecidableEq, Inhabited

/-- How the endpoints are found. -/
inductive Resolution where
  | static
  deriving DecidableEq, Inhabited

structure Endpoint where
  address : String
  /-- The numbers of the ports by name. -/
  ports : Table String UInt32
  labels : Labels
  deriving DecidableEq, Inhabited

end ServiceEntry

structure ServiceEntry where
  hosts : List String
  addresses : List String
  ports : List Port
  location : ServiceEntry.Location
  resolution : ServiceEntry.Resolution
  endpoints : List ServiceEntry.Endpoint
  deriving DecidableEq, Inhabited

namespace ServiceEntry

/-! ## Written form -/

namespace Location

def toJson : Location → Json
  | meshInternal => .string "MESH_INTERNAL"

def ofJson : Json.Decoder Location := Json.asWordOf [("MESH_INTERNAL", meshInternal)]

end Location

namespace Resolution

def toJson : Resolution → Json
  | static => .string "STATIC"

def ofJson : Json.Decoder Resolution := Json.asWordOf [("STATIC", static)]

end Resolution

namespace Endpoint

def toJson (e : Endpoint) : Json :=
  .object
    [("address", .string e.address),
     ("ports", .object (e.ports.entries.map fun p => (p.1, .ofNat p.2.toNat))),
     ("labels", e.labels.toJson)]

def ofJson : Json.Decoder Endpoint :=
  Json.record ["address", "ports", "labels"] fun r =>
    Endpoint.mk <$> r.required "address" Json.asString
      <*> r.required "ports" (Json.asTable Json.asWord) <*> r.required "labels" Labels.ofJson

end Endpoint

def toJson (s : ServiceEntry) : Json :=
  .object (Json.present
    [("hosts", some (.array (s.hosts.map .string))),
     ("addresses", Json.unlessEmpty (s.addresses.map .string)),
     ("ports", some (.array (s.ports.map Port.toJson))),
     ("location", some s.location.toJson),
     ("resolution", some s.resolution.toJson),
     ("endpoints", some (.array (s.endpoints.map Endpoint.toJson)))])

def ofJson : Json.Decoder ServiceEntry :=
  Json.record ["hosts", "addresses", "ports", "location", "resolution", "endpoints"] fun r =>
    ServiceEntry.mk <$> r.required "hosts" (Json.asList Json.asString)
      <*> r.withDefault "addresses" [] (Json.asList Json.asString)
      <*> r.required "ports" (Json.asList Port.ofJson)
      <*> r.required "location" Location.ofJson <*> r.required "resolution" Resolution.ofJson
      <*> r.required "endpoints" (Json.asList Endpoint.ofJson)

end ServiceEntry

end MeshControl
