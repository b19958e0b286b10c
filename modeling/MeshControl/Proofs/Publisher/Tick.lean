import MeshControl.Proofs.Table
import MeshControl.Publisher.Pipeline

/-!
# One tick

A tick looks at every kind on its own. A kind that was made anew is compared with what the sink
took last, and a kind that could not be made stays as it was. The sink is asked if some kind
changed, and the publisher moves on only when the sink agrees.

## Main definitions

* `Tick` — what a tick finds.
* `Publisher.revise` — the release of a kind after the kind was made anew.
* `Publisher.Changes` — what was made of a kind is not what the sink took last.
* `Publisher.tick_cases` — everything that a tick can do.
-/

namespace MeshControl

/-- What a tick finds: the inputs of the configuration, and the answer that the sink would give. -/
structure Tick where
  inputs : MeshInputs
  answer : SinkAnswer

/-- Whether the sink was asked and did not agree. -/
def TickOutcome.refused : TickOutcome → Bool
  | unchanged | published _ => false
  | failed _ => true

namespace Publisher

def after (p : Publisher) (t : Tick) : Publisher := (p.tick t.inputs t.answer).1

def outcome (p : Publisher) (t : Tick) : TickOutcome := (p.tick t.inputs t.answer).2

/-- The release of a kind after it was made anew, if it could be made. -/
def revise (before : Option Release) (made : Option (List Resource)) : Option Release :=
  match made with
  | none => before
  | some resources =>
    match before with
    | none => some ⟨1, resources⟩
    | some r => if r.resources = resources then some r else some ⟨r.number + 1, resources⟩

/-- What was made of a kind is not what the sink took last. -/
def Changes (p : Publisher) (inputs : MeshInputs) (kind : ResourceKind) : Prop :=
  ∃ resources, inputs.resources? kind = some resources ∧
    (p.accepted.get? kind).map (·.resources) ≠ some resources

/-! ## One kind -/

@[simp] theorem revise_not_made (before : Option Release) : revise before none = before := rfl

theorem revise_made (before : Option Release) (resources : List Resource) :
    ∃ number, revise before (some resources) = some ⟨number, resources⟩ := by
  cases before with
  | none => exact ⟨1, rfl⟩
  | some r =>
    by_cases same : r.resources = resources
    · refine ⟨r.number, ?_⟩
      subst same
      simp [revise]
    · exact ⟨r.number + 1, by simp [revise, same]⟩

theorem revise_eq_self_iff {before : Option Release} {made : Option (List Resource)} :
    revise before made = before ↔
      ∀ resources, made = some resources → before.map (·.resources) = some resources := by
  constructor
  · rintro same resources rfl
    obtain ⟨number, h⟩ := revise_made before resources
    rw [← same, h, Option.map_some]
  · intro h
    cases made with
    | none => rfl
    | some resources =>
      obtain ⟨r, rfl, rfl⟩ := Option.map_eq_some_iff.mp (h resources rfl)
      simp [revise]

/-- A kind that is there keeps its release, or is released with the next number. -/
theorem revise_some (r : Release) (made : Option (List Resource)) :
    revise (some r) made = some r ∨
      ∃ resources, r.resources ≠ resources ∧
        revise (some r) made = some ⟨r.number + 1, resources⟩ := by
  cases made with
  | none => exact .inl rfl
  | some resources =>
    by_cases same : r.resources = resources
    · exact .inl (by simp [revise, same])
    · exact .inr ⟨resources, same, by simp [revise, same]⟩

theorem number_of_revise_none {made : Option (List Resource)} {r : Release}
    (h : revise none made = some r) : r.number = 1 := by
  cases made with
  | none => simp at h
  | some resources =>
    obtain rfl : ⟨1, resources⟩ = r := by simpa [revise] using h
    rfl

/-! ## All kinds -/

theorem get?_release {before after : Releases} {kind : ResourceKind}
    (same : after.get? kind = before.get? kind) (resources : List Resource) (k : ResourceKind) :
    (release before after kind resources).get? k =
      if k = kind then revise (before.get? kind) (some resources) else after.get? k := by
  have inserted : ∀ r : Release, (after.insert kind r).get? k =
      if k = kind then some r else after.get? k := by
    intro r
    simp only [Table.get?_insert, Std.LawfulEqCmp.compare_eq_iff_eq]
  unfold release revise
  cases h : before.get? kind with
  | none => exact inserted _
  | some r =>
    simp only
    by_cases equal : r.resources = resources
    · split_ifs with hk
      · rw [hk, same, h]
      · rfl
    · simp only [equal, ↓reduceIte]
      exact inserted _

/-- The releases with some kinds made anew. The kinds that are still to come are as they were. -/
theorem get?_foldl_release (inputs : MeshInputs) (before : Releases) {kinds : List ResourceKind}
    (distinct : kinds.Nodup) {after : Releases}
    (same : ∀ kind ∈ kinds, after.get? kind = before.get? kind) (k : ResourceKind) :
    ((kinds.filterMap fun kind => (inputs.resources? kind).map (kind, ·)).foldl
        (fun t e => release before t e.1 e.2) after).get? k =
      if k ∈ kinds then revise (before.get? k) (inputs.resources? k) else after.get? k := by
  induction kinds generalizing after with
  | nil => rfl
  | cons kind kinds ih =>
    obtain ⟨fresh, distinct⟩ := List.nodup_cons.mp distinct
    have same' : ∀ kind' ∈ kinds, after.get? kind' = before.get? kind' :=
      fun kind' h => same kind' (List.mem_cons_of_mem _ h)
    cases made : inputs.resources? kind with
    | none =>
      simp only [List.filterMap_cons, made, Option.map_none]
      rw [ih distinct same']
      by_cases hk : k = kind
      · subst hk
        simp [fresh, made, same]
      · simp [hk]
    | some resources =>
      have here := same kind List.mem_cons_self
      simp only [List.filterMap_cons, made, Option.map_some, List.foldl_cons]
      rw [ih distinct]
      · by_cases hk : k = kind
        · subst hk
          simp [fresh, made, get?_release here]
        · simp [hk, get?_release here]
      · intro kind' h
        have other : kind' ≠ kind := fun e => fresh (e ▸ h)
        rw [get?_release here, if_neg other, same' kind' h]

theorem get?_next (p : Publisher) (inputs : MeshInputs) (kind : ResourceKind) :
    (p.next inputs).get? kind = revise (p.accepted.get? kind) (inputs.resources? kind) := by
  have distinct : ResourceKind.all.Nodup := by decide
  unfold next MeshInputs.configuration
  rw [get?_foldl_release inputs p.accepted distinct (fun _ _ => rfl) kind,
    if_pos (ResourceKind.mem_all kind)]

theorem next_eq_accepted_iff {p : Publisher} {inputs : MeshInputs} :
    p.next inputs = p.accepted ↔ ∀ kind, ¬ p.Changes inputs kind := by
  have kindwise : p.next inputs = p.accepted ↔
      ∀ kind, (p.next inputs).get? kind = p.accepted.get? kind :=
    ⟨fun h kind => by rw [h], Table.eq_of_get?⟩
  simp only [kindwise, get?_next, revise_eq_self_iff, Changes, not_exists, not_and, not_not]

/-! ## The tick -/

/-- Everything that a tick can do. -/
theorem tick_cases (p : Publisher) (t : Tick) :
    ((∀ kind, ¬ p.Changes t.inputs kind) ∧ p.after t = p ∧ p.outcome t = .unchanged) ∨
    ((∃ kind, p.Changes t.inputs kind) ∧ t.answer = .ok () ∧ p.after t = ⟨p.next t.inputs⟩ ∧
      p.outcome t = .published (snapshot (p.next t.inputs))) ∨
    ((∃ kind, p.Changes t.inputs kind) ∧ ∃ why, t.answer = .error why ∧ p.after t = p ∧
      p.outcome t = .failed why) := by
  obtain ⟨inputs, answer⟩ := t
  unfold after outcome tick tickWith offer?
  by_cases same : p.next inputs = p.accepted
  · exact .inl ⟨next_eq_accepted_iff.mp same, by simp [same], by simp [same]⟩
  · have changed : ∃ kind, p.Changes inputs kind := by
      by_contra none
      exact same (next_eq_accepted_iff.mpr (not_exists.mp none))
    right
    cases answer with
    | ok => exact .inl ⟨changed, rfl, by simp [same], by simp [same]⟩
    | error why => exact .inr ⟨changed, why, rfl, by simp [same], by simp [same]⟩

theorem after_of_refused (p : Publisher) (t : Tick) (h : (p.outcome t).refused) :
    p.after t = p := by
  obtain ⟨_, same, _⟩ | ⟨_, _, _, published⟩ | ⟨_, _, _, same, _⟩ := p.tick_cases t
  · exact same
  · rw [published] at h
    contradiction
  · exact same

theorem accepted_after (p : Publisher) (t : Tick) (h : ¬ (p.outcome t).refused) :
    (p.after t).accepted = p.next t.inputs := by
  obtain ⟨quiet, same, _⟩ | ⟨_, _, moved, _⟩ | ⟨_, _, _, _, failed⟩ := p.tick_cases t
  · rw [same, next_eq_accepted_iff.mpr quiet]
  · rw [moved]
  · rw [failed] at h
    exact absurd rfl h

theorem offer?_eq_none_iff {p : Publisher} {inputs : MeshInputs} :
    p.offer? inputs = none ↔ ∀ kind, ¬ p.Changes inputs kind := by
  rw [offer?, ite_eq_left_iff, ← next_eq_accepted_iff]
  simp

theorem eq_snapshot_of_offer? {p : Publisher} {inputs : MeshInputs} {s : Snapshot}
    (offered : p.offer? inputs = some s) : s = snapshot (p.next inputs) := by
  unfold offer? at offered
  split_ifs at offered
  exact (Option.some.inj offered).symm

theorem outcome_eq_unchanged_iff (p : Publisher) (t : Tick) :
    p.outcome t = .unchanged ↔ ∀ kind, ¬ p.Changes t.inputs kind := by
  obtain ⟨quiet, _, unchanged⟩ | ⟨changed, _, _, published⟩ | ⟨changed, _, _, _, failed⟩ :=
    p.tick_cases t
  · exact iff_of_true unchanged quiet
  · exact iff_of_false (by simp [published]) (not_forall_not.mpr changed)
  · exact iff_of_false (by simp [failed]) (not_forall_not.mpr changed)

end Publisher

/-! ## The tick of a pipeline -/

namespace Pipeline

/-- Everything that a tick of a pipeline can do. -/
theorem tick_cases (p : Pipeline) :
    (p.publisher.offer? p.inputs = none ∧ p.tick = (p, .unchanged)) ∨
    ∃ s, p.publisher.offer? p.inputs = some s ∧
      ((p.sinkAnswer = .ok () ∧
        p.tick =
          ({ p with
              publisher := ⟨p.publisher.next p.inputs⟩
              plane := { p.plane with snapshots := p.plane.snapshots.set p.node s }
              sinkCalls := p.sinkCalls + 1 },
            .published s)) ∨
        ∃ why, p.sinkAnswer = .error why ∧
          p.tick = ({ p with sinkCalls := p.sinkCalls + 1 }, .failed why)) := by
  unfold tick Publisher.tickWith
  cases offered : p.publisher.offer? p.inputs with
  | none => exact .inl ⟨rfl, rfl⟩
  | some s =>
    refine .inr ⟨s, rfl, ?_⟩
    cases answer : p.sinkAnswer with
    | ok => exact .inl ⟨rfl, by simp [offer, answer]⟩
    | error why => exact .inr ⟨why, rfl, by simp [offer, answer]⟩

/-- The publisher makes of the answer of the sink what it makes of such an answer in any tick. -/
theorem tick_eq (p : Pipeline) :
    (p.tick.1.publisher, p.tick.2) = p.publisher.tick p.inputs p.sinkAnswer := by
  unfold Publisher.tick Publisher.tickWith
  obtain ⟨quiet, same⟩ | ⟨s, offered, ⟨answer, taken⟩ | ⟨why, answer, refused⟩⟩ := p.tick_cases
  · rw [quiet, same]
    rfl
  · rw [offered, answer, taken]
    rfl
  · rw [offered, answer, refused]
    rfl

/-- A tick leaves everything as it is but the publisher, the snapshots and the count of calls. -/
theorem tick_frame (p : Pipeline) :
    p.tick.1 = { p with
      publisher := p.tick.1.publisher
      plane := { p.plane with snapshots := p.tick.1.plane.snapshots }
      sinkCalls := p.tick.1.sinkCalls } := by
  obtain ⟨-, same⟩ | ⟨s, -, ⟨-, taken⟩ | ⟨why, -, refused⟩⟩ := p.tick_cases
  · rw [same]
  · rw [taken]
  · rw [refused]

@[simp] theorem node_tick (p : Pipeline) : p.tick.1.node = p.node := by
  rw [tick_frame]

@[simp] theorem desired_tick (p : Pipeline) : p.tick.1.plane.desired = p.plane.desired := by
  rw [tick_frame]

@[simp] theorem backends_tick (p : Pipeline) : p.tick.1.plane.backends = p.plane.backends := by
  rw [tick_frame]

@[simp] theorem inputs_tick (p : Pipeline) : p.tick.1.inputs = p.inputs := by
  rw [tick_frame]
  rfl

theorem publisher_tick (p : Pipeline) :
    p.tick.1.publisher = p.publisher.after ⟨p.inputs, p.sinkAnswer⟩ :=
  congrArg Prod.fst p.tick_eq

theorem outcome_tick (p : Pipeline) :
    p.tick.2 = p.publisher.outcome ⟨p.inputs, p.sinkAnswer⟩ :=
  congrArg Prod.snd p.tick_eq

end Pipeline

end MeshControl
