import Mathlib
import MeshControl.CommandLine

/-!
# Checking a configuration and running with it

A configuration that passes its check can be run with, but for one thing that only a run looks at:
the address of the scheduler. If a scheduler can be asked there, the run gets as far as listening.

## Main definitions

* `Scheduler.Names` — an address names the authority of a scheduler.
* `Config.Sound` — nothing in a configuration is against running with it.
* `Daemon.listen` — what comes of a daemon that is about to listen.
* `CommandLine.run_cases` — everything that a run can come to, beside what the check comes to.
-/

namespace MeshControl

/-- An address is a target with an authority, and its scheme, if it has one, is the one that is
spoken. -/
def Scheduler.Names (url authority : String) : Prop :=
  ∃ target, Target.parse url = .ok target ∧ target.authority = some authority ∧
    ∀ s, target.scheme = some s → s = Scheduler.scheme

/-- Nothing in a configuration is against running with it. -/
structure Config.Sound (c : Config) : Prop where
  reconcileInterval : ¬ c.scheduler.reconcileInterval.isZero
  channelCapacity : 0 < c.scheduler.channelCapacity
  snapshotInterval : ¬ c.snapshots.interval.isZero
  nodeId : c.snapshots.nodeId ≠ ""
  gatewayName : c.snapshots.ingress.gatewayName ≠ ""
  hosts : ∀ p ∈ c.certificates.fixed, p.hosts ≠ []
  edges : ∀ e ∈ c.policies, e.source ≠ "" ∧ e.destination ≠ ""

/-- What comes of a daemon that is about to listen. -/
def Daemon.listen (host : Daemon.Host) (d : Daemon) : CommandLine.Result :=
  match host d.config.listen with
  | some problem => .notStarted (.cannotListen problem)
  | none => .started d

/-! ## Addresses of schedulers -/

namespace Scheduler

theorem authorityOf_eq_ok_iff {url authority : String} :
    authorityOf url = .ok authority ↔ Names url authority := by
  unfold authorityOf Names
  cases parsed : Target.parse url with
  | error fault => simp
  | ok target =>
    obtain ⟨_ | s, _ | a, path⟩ := target
    · simp
    · simp
    · by_cases spoken : s = scheme <;> simp [spoken, Option.filter]
    · by_cases spoken : s = scheme <;> simp [spoken, Option.filter]

/-- A failure is about the address that was looked at. -/
theorem url_of_authorityOf_eq_error {url : String} {e : InvalidAddress}
    (h : authorityOf url = .error e) : e.url = url := by
  unfold authorityOf at h
  split at h
  · rw [← Except.error.inj h]
  · split at h
    · rw [← Except.error.inj h]
    · rw [← Except.error.inj h]
    · contradiction

theorem authorityOf_cases (url : String) :
    (∃ authority, Names url authority ∧ authorityOf url = .ok authority) ∨
    ∃ fault, (∀ authority, ¬ Names url authority) ∧ authorityOf url = .error ⟨url, fault⟩ := by
  cases looked : authorityOf url with
  | ok authority => exact .inl ⟨authority, authorityOf_eq_ok_iff.mp looked, rfl⟩
  | error e =>
    obtain rfl := url_of_authorityOf_eq_error looked
    refine .inr ⟨e.fault, fun authority named => ?_, rfl⟩
    rw [authorityOf_eq_ok_iff.mpr named] at looked
    contradiction

end Scheduler

/-! ## Configurations -/

namespace Config

variable {c c' : Config}

theorem invalid?_eq_none_iff : c.invalid? = none ↔ c.Sound := by
  have hosts : c.certificates.fixed.find? (·.hosts.isEmpty) = none ↔
      ∀ p ∈ c.certificates.fixed, p.hosts ≠ [] := by
    simp
  have edges : (c.policies.any fun e => e.source = "" || e.destination = "") = false ↔
      ∀ e ∈ c.policies, e.source ≠ "" ∧ e.destination ≠ "" := by
    simp
  constructor
  · intro h
    unfold invalid? at h
    cases all : c.certificates.fixed.find? (·.hosts.isEmpty) with
    | some certificate =>
      rw [all] at h
      split_ifs at h
    | none =>
      rw [all] at h
      split_ifs at h with reconcile capacity interval names incomplete
      rw [Bool.or_eq_true, decide_eq_true_iff, decide_eq_true_iff, not_or] at names
      exact ⟨reconcile, Nat.pos_of_ne_zero capacity, interval, names.1, names.2, hosts.mp all,
        edges.mp (Bool.eq_false_iff.mpr incomplete)⟩
  · intro sound
    simp [invalid?, sound.reconcileInterval, sound.channelCapacity.ne', sound.snapshotInterval,
      sound.nodeId, sound.gatewayName, hosts.mpr sound.hosts, edges.mpr sound.edges]

theorem validate_eq_ok_iff : c.validate = .ok c' ↔ c.Sound ∧ c' = c := by
  rw [← invalid?_eq_none_iff, validate]
  cases c.invalid? with
  | none => simp [eq_comm]
  | some why => simp

theorem sound_of_parse {text : String} (h : parse text = .ok c) : c.Sound := by
  unfold parse at h
  split at h
  · contradiction
  · split at h
    · contradiction
    · obtain ⟨sound, rfl⟩ := validate_eq_ok_iff.mp h
      exact sound

end Config

/-! ## Runs -/

/-- A daemon that does not listen was given an address that names no scheduler. -/
theorem Daemon.start_cases (host : Host) (c : Config) :
    (∃ url fault, c.scheduler.url = some url ∧ (∀ authority, ¬ Scheduler.Names url authority) ∧
      CommandLine.startResult host c = .notStarted (.invalidAddress ⟨url, fault⟩)) ∨
    ∃ authority, Option.Rel Scheduler.Names c.scheduler.url authority ∧
      CommandLine.startResult host c = listen host ⟨c, authority⟩ := by
  have listens : ∀ authority, c.scheduler.url.mapM Scheduler.authorityOf = .ok authority →
      CommandLine.startResult host c = listen host ⟨c, authority⟩ := by
    intro authority looked
    rw [CommandLine.startResult, start, looked, listen]
    cases host c.listen <;> rfl
  cases given : c.scheduler.url with
  | none =>
    rw [given] at listens
    exact .inr ⟨none, .none, listens none rfl⟩
  | some url =>
    rw [given, Option.mapM_some] at listens
    obtain ⟨authority, named, looked⟩ | ⟨fault, nameless, looked⟩ :=
      Scheduler.authorityOf_cases url
    · exact .inr ⟨some authority, .some named, listens _ (by rw [looked]; rfl)⟩
    · refine .inl ⟨url, fault, rfl, nameless, ?_⟩
      rw [CommandLine.startResult, start, given, Option.mapM_some, looked]
      rfl

namespace CommandLine

/-- Everything that a run with a file can come to, beside what the check of the file comes to: both
report that there is no configuration, or the check accepts a sound one. A run with that one fails
for the address of its scheduler, or it gets as far as listening. -/
theorem run_cases (host host' : Daemon.Host) (text : Except FileProblem String) (path : String)
    (listen : Option SocketAddress) (format format' : LogFormat) :
    let check := Invocation.perform ⟨format, .checkConfig path⟩ host text
    let run := Invocation.perform ⟨format', .run (some path) listen⟩ host' text
    (∃ problem, check = .noConfig problem ∧ run = .noConfig problem) ∨
    ∃ c, check = .checked path c ∧ c.Sound ∧
      ((∃ url fault, c.scheduler.url = some url ∧
          (∀ authority, ¬ Scheduler.Names url authority) ∧
          run = .notStarted (.invalidAddress ⟨url, fault⟩)) ∨
        ∃ authority, Option.Rel Scheduler.Names c.scheduler.url authority ∧
          run = Daemon.listen host' ⟨{ c with listen := listen.getD c.listen }, authority⟩) := by
  intro check run
  cases read : configOf path text with
  | error problem =>
    refine .inl ⟨problem, ?_, ?_⟩
    · simp [check, Invocation.perform, read]
    · simp [run, Invocation.perform, read]
  | ok c =>
    have checked : check = .checked path c := by simp [check, Invocation.perform, read]
    have begun : run = startResult host' { c with listen := listen.getD c.listen } := by
      simp [run, Invocation.perform, read]
    have sound : c.Sound := by
      cases text with
      | error problem => contradiction
      | ok text => exact Config.sound_of_parse read
    rw [begun]
    have started := Daemon.start_cases host' { c with listen := listen.getD c.listen }
    exact .inr ⟨c, checked, sound, started⟩

/-- A check accepts an address with a scheme that is not spoken, and a run fails for it. -/
theorem checked_not_run :
    let text := "[scheduler]\nurl = \"https://scheduler.example:8889\"\n"
    let host : Daemon.Host := fun _ => none
    let check := Invocation.perform ⟨.text, .checkConfig "mesh.toml"⟩ host (.ok text)
    let run := Invocation.perform ⟨.text, .run (some "mesh.toml") none⟩ host (.ok text)
    check.exitCode = exitSuccess ∧ run.exitCode = exitFailure ∧
      run = .notStarted (.invalidAddress
        ⟨"https://scheduler.example:8889", .unsupportedScheme "https"⟩) := by
  decide +kernel

end CommandLine

end MeshControl
