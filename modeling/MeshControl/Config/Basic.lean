import MeshControl.Certificate.Basic
import MeshControl.Duration
import MeshControl.FileTree
import MeshControl.Instance
import MeshControl.Mesh.Ingress
import MeshControl.Policy
import MeshControl.SocketAddress

/-!
# Configuration

What the daemon is told when it starts: where to listen, which scheduler to ask, how often to
publish and under which names, and the certificates and policy edges that are fixed.

## Main definitions

* `Config` — with `Config.standard`, which holds where nothing is said.
* `Config.Invalid` — what cannot be run with, and `Config.validate`.
* `Config.Problem` — why there is no configuration.
-/

namespace MeshControl

namespace Config

structure Scheduler where
  /-- Without an address there are no backends. -/
  url : Option String
  reconcileInterval : Duration
  retryDelay : Duration
  requestTimeout : Duration
  channelCapacity : Nat
  sshPort : UInt16
  deriving DecidableEq, Inhabited

structure Snapshots where
  interval : Duration
  nodeId : String
  ingress : Ingress
  deriving DecidableEq, Inhabited

structure Certificates where
  /-- A directory to look for certificates in. -/
  directory : Option String
  fixed : List Certificate
  deriving DecidableEq, Inhabited

end Config

structure Config where
  listen : SocketAddress
  scheduler : Config.Scheduler
  snapshots : Config.Snapshots
  certificates : Config.Certificates
  policies : List PolicyEdge
  deriving DecidableEq, Inhabited

namespace Config

/-! ## What holds where nothing is said -/

def standardListen : SocketAddress := .v4 ⟨0, 0, 0, 0⟩ 9000

def Scheduler.standard : Scheduler where
  url := none
  reconcileInterval := .ofSeconds 30
  retryDelay := .ofSeconds 1
  requestTimeout := .ofSeconds 10
  channelCapacity := 1024
  sshPort := defaultSshPort

def Snapshots.standard : Snapshots := ⟨.ofSeconds 5, "default", .standard⟩

def Certificates.standard : Certificates := ⟨none, []⟩

def standard : Config := ⟨standardListen, .standard, .standard, .standard, []⟩

/-! ## Validation -/

/-- What cannot be run with. -/
inductive Invalid where
  | noReconcileInterval
  | noChannelCapacity
  | noSnapshotInterval
  | noNames
  /-- A certificate without hosts, known by the place of its file. -/
  | noHosts (certPath : String)
  | openEdge
  deriving DecidableEq, Inhabited

def Invalid.message : Invalid → String
  | noReconcileInterval => "scheduler.reconcile_interval must be positive"
  | noChannelCapacity => "scheduler.channel_capacity must be positive"
  | noSnapshotInterval => "snapshot.interval must be positive"
  | noNames => "snapshot.node_id and snapshot.gateway_name are required"
  | noHosts certPath => s!"certificate pair {certPath} lists no hosts"
  | openEdge => "policy edges need a source and a destination"

/-- The first of the things that cannot be run with. -/
def invalid? (c : Config) : Option Invalid :=
  if c.scheduler.reconcileInterval.isZero then some .noReconcileInterval
  else if c.scheduler.channelCapacity = 0 then some .noChannelCapacity
  else if c.snapshots.interval.isZero then some .noSnapshotInterval
  else if c.snapshots.nodeId = "" || c.snapshots.ingress.gatewayName = "" then some .noNames
  else
    match c.certificates.fixed.find? (·.hosts.isEmpty) with
    | some certificate => some (.noHosts certificate.certPath)
    | none =>
      if c.policies.any fun e => e.source = "" || e.destination = "" then some .openEdge
      else none

/-- Why there is no configuration. -/
inductive Problem where
  | unreadable (path : String) (problem : FileProblem)
  /-- The text is not a configuration. There may be a sentence about it. -/
  | malformed (detail : Option String)
  | invalid (why : Invalid)
  deriving DecidableEq, Inhabited

def validate (c : Config) : Except Problem Config :=
  match c.invalid? with
  | none => .ok c
  | some why => .error (.invalid why)

end Config

end MeshControl
