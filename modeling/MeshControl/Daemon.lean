import MeshControl.Certificate.Discovery
import MeshControl.Config.Basic
import MeshControl.Publisher.Pipeline
import MeshControl.Scheduler.Address

/-!
# The daemon

A daemon is started from a configuration: it finds out which scheduler to ask, and then listens
for callers. Everything that callers, the scheduler and the publisher do happens in its pipeline.

## Main definitions

* `Daemon.start` — the daemon that a configuration starts, or why it does not start.
* `Daemon.pipeline`, `Daemon.sources` — what it begins with, and where it finds certificates.
-/

namespace MeshControl

structure Daemon where
  config : Config
  /-- The authority of the scheduler, if there is one. -/
  scheduler : Option String
  deriving DecidableEq, Inhabited

namespace Daemon

/-- Why a daemon does not start. -/
inductive StartFailure where
  | invalidAddress (e : Scheduler.InvalidAddress)
  | cannotListen (problem : FileProblem)
  deriving DecidableEq, Inhabited

def StartFailure.message : StartFailure → String
  | invalidAddress e => e.message
  | cannotListen problem => problem.message

/-- A host that tells whether an address can be listened at, and why not. -/
abbrev Host := SocketAddress → Option FileProblem

/-- The daemon of a configuration. The address of the scheduler is looked at first. -/
def start (host : Host) (c : Config) : Except StartFailure Daemon := do
  let scheduler ← (c.scheduler.url.mapM Scheduler.authorityOf).mapError .invalidAddress
  match host c.listen with
  | some problem => throw (.cannotListen problem)
  | none => return ⟨c, scheduler⟩

def pipeline (d : Daemon) : Pipeline where
  ingress := d.config.snapshots.ingress
  node := d.config.snapshots.nodeId
  plane := .init d.config.scheduler.sshPort
  publisher := .init
  certificates := []
  discoveryFails := false
  policies := d.config.policies
  sinkFailure := none
  sinkCalls := 0

/-- Where certificates come from: those that are fixed, and a directory that is looked up. -/
def sources (d : Daemon) (lookUp : String → Option FileTree) : List Certificate.Source :=
  (if d.config.certificates.fixed = [] then [] else [.fixed d.config.certificates.fixed]) ++
    d.config.certificates.directory.toList.map fun root => .directory root (lookUp root)

/-- A pipeline with the certificates of some sources. If they cannot be found the ones before
are kept out of use until they can. -/
def withCertificates (p : Pipeline) (sources : List Certificate.Source) : Pipeline :=
  match Certificate.locate sources with
  | .ok certificates => { p with certificates, discoveryFails := false }
  | .error _ => { p with discoveryFails := true }

end Daemon

end MeshControl
