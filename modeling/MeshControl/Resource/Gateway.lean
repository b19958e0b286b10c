import MeshControl.Resource.Labels

/-!
# Gateways

The servers at the edge of the mesh: a port, the host names it serves, and the certificate that
it shows for them.

## Main definitions

* `Gateway`, `Gateway.Server`, `Gateway.Tls` — with their written forms.
-/

namespace MeshControl

namespace Gateway

/-- How connections are secured. -/
inductive TlsMode where
  | simple
  deriving DecidableEq, Inhabited

/-- Where a server finds its certificate and its key. -/
structure Tls where
  mode : TlsMode
  serverCertificate : String
  privateKey : String
  deriving DecidableEq, Inhabited

structure Server where
  port : Port
  hosts : List String
  tls : Option Tls
  deriving DecidableEq, Inhabited

end Gateway

structure Gateway where
  servers : List Gateway.Server
  deriving DecidableEq, Inhabited

namespace Gateway

/-! ## Written form -/

namespace TlsMode

def toJson : TlsMode → Json
  | simple => .string "SIMPLE"

def ofJson : Json.Decoder TlsMode := Json.asWordOf [("SIMPLE", simple)]

end TlsMode

namespace Tls

def toJson (t : Tls) : Json :=
  .object [("mode", t.mode.toJson), ("serverCertificate", .string t.serverCertificate),
    ("privateKey", .string t.privateKey)]

def ofJson : Json.Decoder Tls :=
  Json.record ["mode", "serverCertificate", "privateKey"] fun r =>
    Tls.mk <$> r.required "mode" TlsMode.ofJson <*> r.required "serverCertificate" Json.asString
      <*> r.required "privateKey" Json.asString

end Tls

namespace Server

def toJson (s : Server) : Json :=
  .object (Json.present
    [("port", some s.port.toJson),
     ("hosts", some (.array (s.hosts.map .string))),
     ("tls", s.tls.map Tls.toJson)])

def ofJson : Json.Decoder Server :=
  Json.record ["port", "hosts", "tls"] fun r =>
    Server.mk <$> r.required "port" Port.ofJson <*> r.required "hosts" (Json.asList Json.asString)
      <*> r.optional "tls" Tls.ofJson

end Server

def toJson (g : Gateway) : Json := .object [("servers", .array (g.servers.map Server.toJson))]

def ofJson : Json.Decoder Gateway :=
  Json.record ["servers"] fun r =>
    Gateway.mk <$> r.required "servers" (Json.asList Server.ofJson)

end Gateway

end MeshControl
