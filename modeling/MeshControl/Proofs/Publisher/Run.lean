import MeshControl.Proofs.Publisher.Tick

/-!
# Ticks in a row

Between two ticks everything that the configuration is made from may change, and the sink may
answer every tick as it likes. Whatever happens, what the publisher remembers is the snapshot that
the sink took last. A tick that the sink refuses leaves no trace, and after any other tick the sink
has every kind as it could be made just then.

## Main definitions

* `Publisher.run`, `Publisher.outcomes`, `Publisher.taken` — several ticks and what came of them.
* `Publisher.Shows` — a snapshot shows what was made anew, and the rest as it was.
* `Publisher.ticks_atomic_fresh` — refused ticks leave no trace, and all others bring the sink up
  to date.
-/

namespace MeshControl

/-- The snapshot that was published. -/
def TickOutcome.accepted? : TickOutcome → Option Snapshot
  | published s => some s
  | unchanged | failed _ => none

namespace Publisher

def run (p : Publisher) (ticks : List Tick) : Publisher := ticks.foldl after p

def outcomes (p : Publisher) : List Tick → List TickOutcome
  | [] => []
  | t :: ticks => p.outcome t :: (p.after t).outcomes ticks

/-- The snapshot that the sink takes at a tick: it is offered one, and agrees. -/
def taken? (p : Publisher) (t : Tick) : Option Snapshot :=
  match t.answer with
  | .ok () => p.offer? t.inputs
  | .error _ => none

/-- The snapshots that the sink takes, in order. -/
def taken (p : Publisher) : List Tick → List Snapshot
  | [] => []
  | t :: ticks => (p.taken? t).toList ++ (p.after t).taken ticks

/-- The outcomes of a run, each with the mark of its tick. -/
def report (p : Publisher) (ticks : List (Tick × Bool)) : List (TickOutcome × Bool) :=
  (p.outcomes (ticks.map (·.1))).zip (ticks.map (·.2))

/-- The snapshot of what the sink took last. -/
def held (p : Publisher) : Snapshot := snapshot p.accepted

/-- Every kind that could be made is as it was made, and every other kind is as it was before. -/
structure Shows (inputs : MeshInputs) (before after : Snapshot) : Prop where
  made : ∀ kind resources, inputs.resources? kind = some resources →
    (after.get? kind).map (·.resources) = some resources
  kept : ∀ kind, inputs.resources? kind = none → after.get? kind = before.get? kind

/-! ## Snapshots of releases -/

theorem get?_snapshot (releases : Releases) (kind : ResourceKind) :
    (snapshot releases).get? kind =
      (releases.get? kind).map fun r => ⟨toString r.number, r.resources⟩ :=
  Table.get?_map _ _ _

theorem resources_get?_snapshot (releases : Releases) (kind : ResourceKind) :
    ((snapshot releases).get? kind).map (·.resources) =
      (releases.get? kind).map (·.resources) := by
  simp [get?_snapshot, Function.comp_def]

/-! ## One tick -/

/-- What the sink takes is what a tick reports as published. -/
theorem taken?_eq (p : Publisher) (t : Tick) : p.taken? t = (p.outcome t).accepted? := by
  obtain ⟨inputs, answer⟩ := t
  unfold taken? outcome tick tickWith
  cases p.offer? inputs <;> cases answer <;> rfl

theorem shows_after (p : Publisher) (t : Tick) (h : ¬ (p.outcome t).refused) :
    Shows t.inputs p.held (p.after t).held := by
  constructor
  · intro kind resources made
    obtain ⟨number, revised⟩ := revise_made (p.accepted.get? kind) resources
    rw [held, resources_get?_snapshot, accepted_after p t h, get?_next, made, revised,
      Option.map_some]
  · intro kind made
    rw [held, held, get?_snapshot, get?_snapshot, accepted_after p t h, get?_next, made,
      revise_not_made]

/-! ## Several ticks -/

theorem run_append (p : Publisher) (ticks ticks' : List Tick) :
    p.run (ticks ++ ticks') = (p.run ticks).run ticks' :=
  List.foldl_append

theorem taken_cons (p : Publisher) (t : Tick) (ticks : List Tick) :
    p.taken (t :: ticks) = (p.outcome t).accepted?.toList ++ (p.after t).taken ticks := by
  rw [taken, taken?_eq]

/-- What the sink takes in a run is what the ticks report as published. -/
theorem taken_eq_filterMap (p : Publisher) (ticks : List Tick) :
    p.taken ticks = (p.outcomes ticks).filterMap (·.accepted?) := by
  induction ticks generalizing p with
  | nil => rfl
  | cons t ticks ih =>
    rw [taken_cons, ih, outcomes, List.filterMap_cons]
    cases (p.outcome t).accepted? <;> rfl

/-- The publisher remembers what the sink took last. -/
theorem getLast?_taken (p : Publisher) (ticks : List Tick) :
    (p.taken ticks).getLast?.getD p.held = (p.run ticks).held := by
  induction ticks generalizing p with
  | nil => rfl
  | cons t ticks ih =>
    rw [taken_cons, run, List.foldl_cons, ← run, ← ih]
    obtain ⟨_, same, unchanged⟩ | ⟨_, _, moved, published⟩ | ⟨_, _, _, same, failed⟩ :=
      p.tick_cases t
    · rw [same, unchanged]
      rfl
    · rw [moved, published]
      simp [TickOutcome.accepted?, List.getLast?_cons, held]
    · rw [same, failed]
      rfl

theorem report_cons (p : Publisher) (t : Tick) (mark : Bool) (ticks : List (Tick × Bool)) :
    p.report ((t, mark) :: ticks) = (p.outcome t, mark) :: (p.after t).report ticks := rfl

theorem taken?_of_refused (p : Publisher) (t : Tick) (h : (p.outcome t).refused) :
    p.taken? t = none := by
  rw [taken?_eq]
  cases outcome : p.outcome t <;> simp_all [TickOutcome.refused, TickOutcome.accepted?]

/-- Ticks that the sink refuses can be left out. -/
theorem report_unmarked (p : Publisher) (ticks : List (Tick × Bool))
    (h : ∀ o ∈ p.report ticks, o.2 → o.1.refused) :
    ((p.report ticks).filter (!·.2)).map (·.1) = p.outcomes ((ticks.filter (!·.2)).map (·.1)) ∧
      p.taken (ticks.map (·.1)) = p.taken ((ticks.filter (!·.2)).map (·.1)) ∧
      p.run (ticks.map (·.1)) = p.run ((ticks.filter (!·.2)).map (·.1)) := by
  induction ticks generalizing p with
  | nil => exact ⟨rfl, rfl, rfl⟩
  | cons marked ticks ih =>
    obtain ⟨t, mark⟩ := marked
    rw [report_cons] at h ⊢
    have rest := ih (p.after t) fun o ho => h o (List.mem_cons_of_mem _ ho)
    cases mark with
    | true =>
      have refused := h _ List.mem_cons_self rfl
      have stays := p.after_of_refused t refused
      rw [stays] at rest
      simpa [run, taken, p.taken?_of_refused t refused, stays] using rest
    | false => simpa [run, taken, outcomes] using rest

/-- After a tick that the sink did not refuse there is a last snapshot, for there are kinds that
can always be made. -/
theorem exists_getLast?_taken (history : List Tick) (t : Tick)
    (h : ¬ ((init.run history).outcome t).refused) :
    ∃ s, (init.taken (history ++ [t])).getLast? = some s ∧
      Shows t.inputs ((init.taken history).getLast?.getD init.held) s := by
  have shows := shows_after (init.run history) t h
  have before := init.getLast?_taken history
  have later : (init.taken (history ++ [t])).getLast?.getD init.held =
      ((init.run history).after t).held := by
    rw [getLast?_taken, run_append]
    rfl
  rw [← before, ← later] at shows
  cases last : (init.taken (history ++ [t])).getLast? with
  | some s => exact ⟨s, rfl, by simpa [last] using shows⟩
  | none =>
    -- Nothing was ever taken, but the services were made just now.
    have made := shows.made .virtualService _ rfl
    rw [last] at made
    have nothing : init.held.get? .virtualService = none := rfl
    simp [nothing] at made

/-! ## The sink -/

theorem sinkCalls_tick (w : Pipeline) :
    (w.tick.1.sinkCalls = w.sinkCalls + 1 ↔ ∃ kind, w.publisher.Changes w.inputs kind) ∧
      (w.tick.2 = .unchanged ↔ w.tick.1.sinkCalls = w.sinkCalls) := by
  have quiet : w.publisher.offer? w.inputs = none ↔ ∀ kind, ¬ w.publisher.Changes w.inputs kind :=
    offer?_eq_none_iff
  rw [← not_forall_not, ← quiet]
  obtain ⟨none, same⟩ | ⟨s, offered, ⟨-, taken⟩ | ⟨why, -, refused⟩⟩ := w.tick_cases
  · simp [none, same]
  · simp [offered, taken]
  · simp [offered, refused]

/-- A tick that the sink refuses changes nothing, so that a run goes on as if it had not been.
After any other tick the last snapshot that the sink took shows the inputs of that tick. The sink
is asked exactly when a kind that could be made is not what the sink took last. -/
theorem ticks_atomic_fresh :
    (∀ (p : Publisher) (t : Tick), (p.outcome t).refused → p.after t = p) ∧
    (∀ (p : Publisher) (ticks : List (Tick × Bool)),
      (∀ o ∈ p.report ticks, o.2 → o.1.refused) →
        ((p.report ticks).filter (!·.2)).map (·.1) =
            p.outcomes ((ticks.filter (!·.2)).map (·.1)) ∧
          p.taken (ticks.map (·.1)) = p.taken ((ticks.filter (!·.2)).map (·.1)) ∧
          p.run (ticks.map (·.1)) = p.run ((ticks.filter (!·.2)).map (·.1))) ∧
    (∀ (p : Publisher) (t : Tick), ¬ (p.outcome t).refused →
      Shows t.inputs p.held (p.after t).held) ∧
    (∀ (history : List Tick) (t : Tick), ¬ ((init.run history).outcome t).refused →
      ∃ s, (init.taken (history ++ [t])).getLast? = some s ∧
        Shows t.inputs ((init.taken history).getLast?.getD init.held) s) ∧
    (∀ w : Pipeline,
      (w.tick.1.sinkCalls = w.sinkCalls + 1 ↔ ∃ kind, w.publisher.Changes w.inputs kind) ∧
        (w.tick.2 = .unchanged ↔ w.tick.1.sinkCalls = w.sinkCalls)) :=
  ⟨after_of_refused, report_unmarked, shows_after, exists_getLast?_taken, sinkCalls_tick⟩

/-- A snapshot is refused, and then taken. -/
theorem ticks_atomic_fresh_refused :
    let inputs : MeshInputs := ⟨.standard, [], some [⟨["a.example"], "cert", "key"⟩], []⟩
    let refused : Tick := ⟨inputs, .error (.unavailable "down")⟩
    let accepted : Tick := ⟨inputs, .ok ()⟩
    (init.outcome refused).refused ∧ init.after refused = init ∧
      (init.taken [refused, accepted]).length = 1 ∧
      init.taken [refused, accepted] = init.taken [accepted] ∧
      ∃ s, (init.taken [refused, accepted]).getLast? = some s ∧ Shows inputs init.held s := by
  intro inputs refused accepted
  obtain ⟨same, left, -, fresh, -⟩ := ticks_atomic_fresh
  have fails : (init.outcome refused).refused := by decide
  have agrees : ¬ ((init.run [refused]).outcome accepted).refused := by decide
  have marked : ∀ o ∈ init.report [(refused, true), (accepted, false)], o.2 → o.1.refused := by
    decide
  exact ⟨fails, same init refused fails, by decide, (left init _ marked).2.1,
    fresh [refused] accepted agrees⟩

end Publisher

end MeshControl
