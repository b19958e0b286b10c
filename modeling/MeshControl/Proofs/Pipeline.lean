import Mathlib.Data.List.Induction
import MeshControl.Proofs.Api.Admission
import MeshControl.Proofs.Publisher.Run

/-!
# A pipeline at work

Requests, updates from the scheduler, changes of the surroundings and ticks come in any order. What
callers have stated is always what admitted edits make of nothing, and what is published for the
node is always what the sink took last, so that after a tick that the sink does not refuse, the
published resources are those of the records just then.

## Main definitions

* `Pipeline.Step`, `Pipeline.run` — what may happen, and what comes of it.
* `Pipeline.Sound` — what holds at any time.
* `Pipeline.Sound.run` — it does.
* `Pipeline.Sound.resources_after_tick` — what is published after a tick.
-/

namespace MeshControl.Pipeline

/-- What may happen to a pipeline. -/
inductive Step where
  | request (q : Api.Request)
  | update (u : Update)
  /-- Certificates, policy edges and the sink are found in another state. -/
  | surround (certificates : List Certificate) (discoveryFails : Bool) (policies : List PolicyEdge)
    (sinkFailure : Option SinkFailure)
  | tick

/-- What comes of a step. The node that callers are told about need not be the one that snapshots
are published for. -/
def step (told : NodeId) (p : Pipeline) : Step → Pipeline
  | .request q => { p with plane := (Api.respond told p.plane q).1 }
  | .update u => { p with plane := p.plane.update u }
  | .surround certificates discoveryFails policies sinkFailure =>
    { p with certificates, discoveryFails, policies, sinkFailure }
  | .tick => p.tick.1

/-- The pipeline after steps in a row. -/
def run (told : NodeId) (p : Pipeline) (steps : List Step) : Pipeline := steps.foldl (step told) p

/-- Nothing is stated, and nothing was published. -/
structure Fresh (p : Pipeline) : Prop where
  desired : p.plane.desired = .empty
  publisher : p.publisher = .init

/-- What callers have stated was admitted, and as soon as the sink took something, the snapshot of
the node is what it took last. -/
structure Sound (p : Pipeline) : Prop where
  admitted : p.plane.desired.Admitted
  shown : p.publisher ≠ .init → p.plane.snapshots.get? p.node = some p.publisher.held

variable {p : Pipeline}

/-! ## One tick -/

/-- A tick leaves the snapshot of the node as it is, or makes it what the publisher holds then. -/
theorem tick_shown (p : Pipeline) :
    (p.tick.1.publisher = p.publisher ∧ p.tick.1.plane.snapshots = p.plane.snapshots) ∨
      p.tick.1.plane.snapshots.get? p.node = some p.tick.1.publisher.held := by
  obtain ⟨-, same⟩ | ⟨s, offered, ⟨-, taken⟩ | ⟨why, -, refused⟩⟩ := p.tick_cases
  · exact .inl (by simp [same])
  · right
    rw [taken, Publisher.held, ← Publisher.eq_snapshot_of_offer? offered]
    exact Snapshot.Cache.get?_set_self _ _ _
  · exact .inl (by simp [refused])

/-- A sink that works does not refuse a tick. -/
theorem not_refused_tick {p : Pipeline} (works : p.sinkFailure = none) : ¬ p.tick.2.refused := by
  have answer : p.sinkAnswer = .ok () := by rw [sinkAnswer, works]
  obtain ⟨-, same⟩ | ⟨s, -, ⟨-, taken⟩ | ⟨why, fails, -⟩⟩ := p.tick_cases
  · simp [same, TickOutcome.refused]
  · simp [taken, TickOutcome.refused]
  · rw [answer] at fails
    cases fails

/-- Where nothing has changed since a tick that the sink did not refuse, the next one has nothing to
offer. -/
theorem tick_unchanged {q : Pipeline} (taken : ¬ p.tick.2.refused)
    (publisher : q.publisher = p.tick.1.publisher) (inputs : q.inputs = p.inputs) :
    q.tick.2 = .unchanged := by
  rw [outcome_tick] at taken ⊢
  have shows := p.publisher.shows_after ⟨p.inputs, p.sinkAnswer⟩ taken
  rw [Publisher.outcome_eq_unchanged_iff, publisher, publisher_tick, inputs]
  rintro kind ⟨resources, made, other⟩
  refine other ?_
  rw [← shows.made kind resources made, Publisher.held, Publisher.resources_get?_snapshot]

/-- After a tick that the sink does not refuse the publisher holds something. -/
theorem publisher_tick_ne_init (taken : ¬ p.tick.2.refused) : p.tick.1.publisher ≠ .init := by
  rw [outcome_tick] at taken
  have shows := p.publisher.shows_after ⟨p.inputs, p.sinkAnswer⟩ taken
  have made := shows.made .virtualService _ rfl
  intro same
  have nothing : Publisher.init.held.get? .virtualService = none := rfl
  rw [← publisher_tick, same, nothing] at made
  cases made

namespace Sound

theorem tick (h : p.Sound) : p.tick.1.Sound := by
  refine ⟨by simpa using h.admitted, fun holds => ?_⟩
  rw [node_tick]
  obtain ⟨same, snapshots⟩ | shown := p.tick_shown
  · rw [snapshots, same]
    exact h.shown (same ▸ holds)
  · exact shown

/-- After a tick that the sink does not refuse, every kind that could be made is published for the
node as it could be made. -/
theorem resources_after_tick (h : p.Sound) (taken : ¬ p.tick.2.refused) :
    ∃ s, p.tick.1.plane.snapshots.get? p.node = some s ∧
      ∀ kind resources, p.inputs.resources? kind = some resources →
        (s.get? kind).map (·.resources) = some resources := by
  have shown := h.tick.shown (publisher_tick_ne_init taken)
  rw [outcome_tick] at taken
  rw [node_tick, publisher_tick] at shown
  exact ⟨_, shown, (p.publisher.shows_after ⟨p.inputs, p.sinkAnswer⟩ taken).made⟩

end Sound

/-! ## Several steps -/

theorem Fresh.sound (h : p.Fresh) : p.Sound where
  admitted := h.desired ▸ DesiredState.admitted_empty
  shown holds := absurd h.publisher holds

theorem Sound.step (h : p.Sound) (told : NodeId) (s : Step) : (p.step told s).Sound := by
  cases s with
  | request q =>
    refine ⟨Api.admitted_respond h.admitted q, ?_⟩
    obtain ⟨e, -, effect⟩ := Api.exists_edits_respond told p.plane q
    have plane : (p.step told (.request q)).plane =
        { p.plane with desired := p.plane.desired.edit e } := effect
    rw [plane]
    exact h.shown
  | update u => exact ⟨h.admitted, h.shown⟩
  | surround => exact ⟨h.admitted, h.shown⟩
  | tick => exact h.tick

theorem Sound.run (h : p.Sound) (told : NodeId) (steps : List Step) : (p.run told steps).Sound := by
  induction steps using List.reverseRecOn with
  | nil => exact h
  | append_singleton steps s ih =>
    rw [Pipeline.run, List.foldl_append]
    exact ih.step told s

end MeshControl.Pipeline
