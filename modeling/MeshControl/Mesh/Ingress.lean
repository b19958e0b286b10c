import MeshControl.Certificate.Basic
import MeshControl.Resource.Body
import MeshControl.SortedSet

/-!
# The ingress gateway

One gateway lets requests into the mesh: in plain text for every host, and encrypted for the
hosts of each certificate.

## Main definitions

* `Ingress` — the name and the port of the gateway.
* `Certificate.firstPerName` — the certificates that get a server.
* `Ingress.gateway` — the gateway.
-/

namespace MeshControl

structure Ingress where
  gatewayName : String
  /-- The port for plain text. -/
  gatewayPort : UInt32
  deriving DecidableEq, Inhabited

/-- The gateway that is used unless another is asked for. -/
def Ingress.standard : Ingress := ⟨"meshsync-ingress", 80⟩

def tlsPort : UInt32 := 443

namespace Certificate

/-- The certificates with a first host whose name is neither taken nor the first host of an
earlier one. -/
def firstPerName (taken : List String) : List Certificate → List (String × Certificate)
  | [] => []
  | c :: rest =>
    match c.hosts.head? with
    | none => firstPerName taken rest
    | some host =>
      if host ∈ taken then firstPerName taken rest
      else (host, c) :: firstPerName (host :: taken) rest

def server (name : String) (c : Certificate) : Gateway.Server where
  port := ⟨tlsPort, "https", name⟩
  hosts := c.hosts
  tls := some ⟨.simple, c.certPath, c.keyPath⟩

end Certificate

namespace Ingress

def plainServer (i : Ingress) : Gateway.Server where
  port := .http i.gatewayPort "http"
  hosts := ["*"]
  tls := none

/-- The servers of the gateway. The names of their ports differ. -/
def gateway (i : Ingress) (certificates : List Certificate) : Gateway where
  servers := i.plainServer ::
    (Certificate.firstPerName ["http"] certificates).map fun c => c.2.server c.1

def gatewayResource (i : Ingress) (certificates : List Certificate) : Resource :=
  .ofBody i.gatewayName (.gateway (i.gateway certificates))

end Ingress

end MeshControl
