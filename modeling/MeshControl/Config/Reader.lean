import MeshControl.Config.Basic
import MeshControl.Text.Quoted
import MeshControl.Toml.Decode
import MeshControl.Toml.Reader

/-!
# Reading configurations

A configuration is written in TOML. Everything may be left out. The sections have no members but
those that are known; certificates and policy edges may have more.

## Main definitions

* `Config.ofToml` — the configuration that a table writes.
* `Config.parse` — the configuration that a text writes, or why there is none.
-/

namespace MeshControl.Config

open Toml

/-! ## Parts -/

def asDuration : Decoder Duration := fun v => do
  let text ← asString v
  match Duration.parse? text with
  | some d => return d
  | none => throw ⟨some s!"invalid duration {Text.quote text}"⟩

def asSocketAddress : Decoder SocketAddress := fun v => do
  required (SocketAddress.parse? (← asString v))

/-- A certificate that is read member by member. -/
structure PartialCertificate where
  hosts : Option (List String)
  certPath : Option String
  keyPath : Option String

def asCertificate : Decoder Certificate := fun v => do
  let step (p : PartialCertificate) (m : String × Toml) : Except Fault PartialCertificate :=
    match m.1 with
    | "hosts" => return { p with hosts := some (← asList asString m.2) }
    | "cert_path" => return { p with certPath := some (← asString m.2) }
    | "key_path" => return { p with keyPath := some (← asString m.2) }
    | _ => return p
  let p ← (← members ["hosts", "cert_path", "key_path"] v).foldlM step ⟨none, none, none⟩
  return ⟨← required p.hosts, ← required p.certPath, ← required p.keyPath⟩

def asPolicyEdge : Decoder PolicyEdge := fun v => do
  let step (p : Option String × Option String) (m : String × Toml) :
      Except Fault (Option String × Option String) :=
    match m.1 with
    | "source" => return (some (← asString m.2), p.2)
    | "destination" => return (p.1, some (← asString m.2))
    | _ => return p
  let p ← (← members ["source", "destination"] v).foldlM step (none, none)
  return ⟨← required p.1, ← required p.2⟩

/-! ## Sections -/

def asListen : Decoder SocketAddress := fun v => do
  let step (_ : SocketAddress) (m : String × Toml) : Except Fault SocketAddress :=
    match m.1 with
    | "listen" => asSocketAddress m.2
    | _ => throw .plain
  (← members ["listen"] v).foldlM step standardListen

def asScheduler : Decoder Scheduler := fun v => do
  let step (s : Scheduler) (m : String × Toml) : Except Fault Scheduler :=
    match m.1 with
    | "url" => return { s with url := some (← asString m.2) }
    | "reconcile_interval" => return { s with reconcileInterval := ← asDuration m.2 }
    | "retry_delay" => return { s with retryDelay := ← asDuration m.2 }
    | "request_timeout" => return { s with requestTimeout := ← asDuration m.2 }
    | "channel_capacity" => return { s with channelCapacity := ← asNat UInt64.size m.2 }
    | "ssh_port" => return { s with sshPort := UInt16.ofNat (← asNat UInt16.size m.2) }
    | _ => throw .plain
  (← members ["url", "reconcile_interval", "retry_delay", "request_timeout", "channel_capacity",
    "ssh_port"] v).foldlM step .standard

def asSnapshots : Decoder Snapshots := fun v => do
  let step (s : Snapshots) (m : String × Toml) : Except Fault Snapshots :=
    match m.1 with
    | "interval" => return { s with interval := ← asDuration m.2 }
    | "node_id" => return { s with nodeId := ← asString m.2 }
    | "gateway_name" =>
      return { s with ingress := { s.ingress with gatewayName := ← asString m.2 } }
    | "gateway_port" => do
      let port ← asNat UInt32.size m.2
      return { s with ingress := { s.ingress with gatewayPort := UInt32.ofNat port } }
    | _ => throw .plain
  (← members ["interval", "node_id", "gateway_name", "gateway_port"] v).foldlM step .standard

def asCertificates : Decoder Certificates := fun v => do
  let step (c : Certificates) (m : String × Toml) : Except Fault Certificates :=
    match m.1 with
    | "dir" => return { c with directory := some (← asString m.2) }
    | "pair" => return { c with fixed := ← asList asCertificate m.2 }
    | _ => throw .plain
  (← members ["dir", "pair"] v).foldlM step .standard

def ofToml (document : List (String × Toml)) : Except Fault Config :=
  document.foldlM
    (fun c m =>
      match m.1 with
      | "api" => return { c with listen := ← asListen m.2 }
      | "scheduler" => return { c with scheduler := ← asScheduler m.2 }
      | "snapshot" => return { c with snapshots := ← asSnapshots m.2 }
      | "certs" => return { c with certificates := ← asCertificates m.2 }
      | "policy" => return { c with policies := ← asList asPolicyEdge m.2 }
      | _ => throw .plain)
    standard

def parse (text : String) : Except Problem Config :=
  match Toml.parse? text with
  | none => .error (.malformed none)
  | some document =>
    match ofToml document with
    | .error fault => .error (.malformed fault.detail)
    | .ok c => c.validate

end MeshControl.Config
