import MeshControl.Proofs.Reconciler.Depiction

/-!
# Notices and listings in any order

The scheduler gives notices one after the other. One task forwards each of them to a channel, in
order and at any later time. Another announces a listing in the channel, fetches it, and puts
it there too, unless fetching fails. The reconciler takes the updates out of the channel in
order. Whatever the order of these steps, once nothing is under way the reconciler has the sets
of all notices.

A listing may be older than notices that were applied before it, and newer than notices that are
applied after it. What carries the proof is that everything sent amounts to some listing with
the notices on top of it that begin no later than the listing itself.

## Main definitions

* `Interleaving.State`, `Interleaving.Step`, `Interleaving.Reachable` — the tasks, in any order.
* `Interleaving.Accounted` — what everything sent amounts to.
* `Interleaving.converges` — the sets when nothing is under way.
-/

namespace MeshControl

namespace Interleaving

/-! ## The tasks -/

/-- Where the task that fetches listings stands. -/
inductive Listing where
  | idle
  /-- A listing was announced and is being fetched. -/
  | announced
  /-- A listing was fetched and is not in the channel yet. -/
  | fetched (instances : List Instance)

structure State where
  /-- The notices that the scheduler has given. -/
  emitted : List InstanceEvent
  /-- How many of them were forwarded to the channel. -/
  forwarded : Nat
  channel : List Update
  listing : Listing
  reconciler : Reconciler

def start (ssh : UInt16) : State := ⟨[], 0, [], .idle, .init ssh⟩

/-- One step of the scheduler or of a task. A channel that holds a task back when it is full only
allows fewer orders of these steps. -/
inductive Step (ssh : UInt16) : State → State → Prop where
  | emit (s : State) (e : InstanceEvent) : Step ssh s { s with emitted := s.emitted ++ [e] }
  | forward (s : State) (e : InstanceEvent) : s.emitted[s.forwarded]? = some e →
      Step ssh s { s with forwarded := s.forwarded + 1, channel := s.channel ++ [.event e] }
  | announce (s : State) : s.listing = .idle →
      Step ssh s { s with channel := s.channel ++ [.listingStarted], listing := .announced }
  | fail (s : State) : s.listing = .announced → Step ssh s { s with listing := .idle }
  /-- A listing shows what the notices leave that were given until it was fetched. -/
  | fetch (s : State) (instances : List Instance) : s.listing = .announced →
      Depicts ssh instances s.emitted → Step ssh s { s with listing := .fetched instances }
  | deliver (s : State) (instances : List Instance) : s.listing = .fetched instances →
      Step ssh s { s with channel := s.channel ++ [.listing instances], listing := .idle }
  | consume (s : State) (u : Update) (rest : List Update) : s.channel = u :: rest →
      Step ssh s { s with channel := rest, reconciler := s.reconciler.apply u }

inductive Reachable (ssh : UInt16) : State → Prop where
  | start : Reachable ssh (start ssh)
  | step {s t : State} : Reachable ssh s → Step ssh s t → Reachable ssh t

/-- All notices were forwarded, no listing is under way, and the channel is empty. -/
structure State.Settled (s : State) : Prop where
  forwarded : s.forwarded = s.emitted.length
  listing : s.listing = .idle
  channel : s.channel = []

/-! ## What was sent -/

/-- The forwarded notices after the first `i`. -/
def State.since (s : State) (i : Nat) : List InstanceEvent := (s.emitted.take s.forwarded).drop i

/-- The notices after the first `i` bring a listing up to date. -/
def State.UpToDate (ssh : UInt16) (s : State) (instances : List Instance) (i : Nat) : Prop :=
  i ≤ s.forwarded ∧ ∃ k, i ≤ k ∧ k ≤ s.emitted.length ∧ Depicts ssh instances (s.emitted.take k)

/-- The log of everything that was sent is a listing with the notices on top that bring it up to
date, and its pending part holds the notices since the last announcement. A listing that has been
fetched but not delivered will be brought up to date by that part. -/
structure Accounted (ssh : UInt16) (s : State) (l : EffectiveLog) : Prop where
  bound : s.forwarded ≤ s.emitted.length
  log : ∃ instances i, s.UpToDate ssh instances i ∧ l.log = instances.map .created ++ s.since i
  pending : ∀ p, l.pending = some p → ∃ i ≤ s.forwarded, p = s.since i
  announced : s.listing = .announced → l.pending.isSome
  fetched : ∀ instances, s.listing = .fetched instances →
    ∃ i, s.UpToDate ssh instances i ∧ l.pending = some (s.since i)

/-- Everything sent is what the reconciler has applied followed by what is in the channel. -/
def Invariant (ssh : UInt16) (s : State) : Prop :=
  ∃ applied, s.reconciler = (Reconciler.init ssh).applyAll applied ∧
    Accounted ssh s (.ofUpdates (applied ++ s.channel))

variable {ssh : UInt16} {s : State} {l : EffectiveLog}

theorem invariant_start : Invariant ssh (start ssh) := by
  refine ⟨[], rfl, ⟨Nat.le_refl 0, ⟨[], 0, ⟨Nat.le_refl 0, 0, ?_⟩, rfl⟩, ?_, ?_, ?_⟩⟩
  · exact ⟨Nat.le_refl 0, Nat.le_refl 0, depicts_created ssh []⟩
  · rintro p ⟨⟩
  · rintro ⟨⟩
  · rintro instances ⟨⟩

/-! ## One step -/

theorem Accounted.emit (h : Accounted ssh s l) (e : InstanceEvent) :
    Accounted ssh { s with emitted := s.emitted ++ [e] } l := by
  have same : ∀ i, State.since { s with emitted := s.emitted ++ [e] } i = s.since i := by
    intro i
    simp only [State.since, List.take_append_of_le_length h.bound]
  have kept : ∀ instances i, s.UpToDate ssh instances i →
      State.UpToDate ssh { s with emitted := s.emitted ++ [e] } instances i := by
    rintro instances i ⟨hi, k, hik, hk, depicts⟩
    refine ⟨hi, k, hik, ?_, ?_⟩
    · simp only [List.length_append, List.length_singleton]
      omega
    · rwa [List.take_append_of_le_length hk]
  refine ⟨?_, ?_, ?_, h.announced, ?_⟩
  · simp only [List.length_append, List.length_singleton]
    have := h.bound
    omega
  · obtain ⟨instances, i, hi, hl⟩ := h.log
    exact ⟨instances, i, kept instances i hi, by rw [same, hl]⟩
  · intro p hp
    obtain ⟨i, hi, rfl⟩ := h.pending p hp
    exact ⟨i, hi, (same i).symm⟩
  · intro instances hs
    obtain ⟨i, hi, hp⟩ := h.fetched instances hs
    exact ⟨i, kept instances i hi, by rw [same, hp]⟩

theorem Accounted.forward (h : Accounted ssh s l) {e : InstanceEvent}
    (he : s.emitted[s.forwarded]? = some e) :
    Accounted ssh { s with forwarded := s.forwarded + 1, channel := s.channel ++ [.event e] }
      (l.apply (.event e)) := by
  have longer : ∀ i ≤ s.forwarded,
      State.since { s with forwarded := s.forwarded + 1, channel := s.channel ++ [.event e] } i
        = s.since i ++ [e] := by
    intro i hi
    have hlen : i ≤ (s.emitted.take s.forwarded).length := by
      rw [List.length_take, Nat.min_eq_left h.bound]
      exact hi
    simp only [State.since]
    rw [List.take_add_one, he, Option.toList_some, List.drop_append_of_le_length hlen]
  have hlt : s.forwarded < s.emitted.length := (List.getElem?_eq_some_iff.mp he).1
  refine ⟨hlt, ?_, ?_, ?_, ?_⟩
  · obtain ⟨instances, i, ⟨hi, later⟩, hl⟩ := h.log
    refine ⟨instances, i, ⟨Nat.le_succ_of_le hi, later⟩, ?_⟩
    rw [longer i hi, ← List.append_assoc, ← hl]
    rfl
  · intro p hp
    obtain ⟨q, hq, rfl⟩ := Option.map_eq_some_iff.mp hp
    obtain ⟨i, hi, rfl⟩ := h.pending q hq
    exact ⟨i, Nat.le_succ_of_le hi, (longer i hi).symm⟩
  · intro hs
    simpa [EffectiveLog.apply] using h.announced hs
  · intro instances hs
    obtain ⟨i, ⟨hi, later⟩, hp⟩ := h.fetched instances hs
    refine ⟨i, ⟨Nat.le_succ_of_le hi, later⟩, ?_⟩
    rw [longer i hi]
    exact congrArg (Option.map (· ++ [e])) hp

theorem Accounted.announce (h : Accounted ssh s l) :
    Accounted ssh { s with channel := s.channel ++ [.listingStarted], listing := .announced }
      (l.apply .listingStarted) := by
  refine ⟨h.bound, h.log, ?_, fun _ => rfl, ?_⟩
  · rintro p ⟨⟩
    refine ⟨s.forwarded, Nat.le_refl _, ?_⟩
    simp [State.since]
  · rintro instances ⟨⟩

theorem Accounted.fail (h : Accounted ssh s l) : Accounted ssh { s with listing := .idle } l := by
  refine ⟨h.bound, h.log, h.pending, ?_, ?_⟩
  · rintro ⟨⟩
  · rintro instances ⟨⟩

theorem Accounted.fetch (h : Accounted ssh s l) (hs : s.listing = .announced)
    {instances : List Instance} (depicts : Depicts ssh instances s.emitted) :
    Accounted ssh { s with listing := .fetched instances } l := by
  refine ⟨h.bound, h.log, h.pending, ?_, ?_⟩
  · rintro ⟨⟩
  · rintro instances' ⟨⟩
    obtain ⟨p, hp⟩ := Option.isSome_iff_exists.mp (h.announced hs)
    obtain ⟨i, hi, rfl⟩ := h.pending p hp
    -- The announcement was sent after `i` notices, and no fewer have been given by now.
    refine ⟨i, ⟨hi, s.emitted.length, Nat.le_trans hi h.bound, Nat.le_refl _, ?_⟩, hp⟩
    rwa [List.take_length]

theorem Accounted.deliver (h : Accounted ssh s l) {instances : List Instance}
    (hs : s.listing = .fetched instances) :
    Accounted ssh { s with channel := s.channel ++ [.listing instances], listing := .idle }
      (l.apply (.listing instances)) := by
  obtain ⟨i, hi, hp⟩ := h.fetched instances hs
  refine ⟨h.bound, ⟨instances, i, hi, ?_⟩, ?_, ?_, ?_⟩
  · simp only [EffectiveLog.apply, hp]
    rfl
  · rintro p ⟨⟩
  · rintro ⟨⟩
  · rintro instances' ⟨⟩

theorem invariant_step {t : State} (h : Invariant ssh s) (step : Step ssh s t) :
    Invariant ssh t := by
  obtain ⟨applied, hr, acc⟩ := h
  have sent : ∀ u, EffectiveLog.ofUpdates (applied ++ (s.channel ++ [u])) =
      (EffectiveLog.ofUpdates (applied ++ s.channel)).apply u := by
    intro u
    rw [← List.append_assoc, EffectiveLog.ofUpdates_concat]
  cases step with
  | emit e => exact ⟨applied, hr, acc.emit e⟩
  | forward e he => exact ⟨applied, hr, sent _ ▸ acc.forward he⟩
  | announce => exact ⟨applied, hr, sent _ ▸ acc.announce⟩
  | fail => exact ⟨applied, hr, acc.fail⟩
  | fetch instances hs depicts => exact ⟨applied, hr, acc.fetch hs depicts⟩
  | deliver instances hs => exact ⟨applied, hr, sent _ ▸ acc.deliver hs⟩
  | consume u rest hc =>
    -- What is applied moves from one part of the whole to the other.
    refine ⟨applied ++ [u], ?_, ?_⟩
    · rw [Reconciler.applyAll_append, ← hr]
      rfl
    · rw [hc, List.append_cons] at acc
      exact ⟨acc.bound, acc.log, acc.pending, acc.announced, acc.fetched⟩

/-! ## Any number of steps -/

/-- The reconciler can take everything out of the channel. -/
theorem Reachable.drain (h : Reachable ssh s) :
    Reachable ssh
      { s with channel := [], reconciler := s.reconciler.applyAll s.channel } := by
  obtain ⟨emitted, forwarded, channel, listing, r⟩ := s
  induction channel generalizing r with
  | nil => exact h
  | cons u channel ih => exact ih _ (h.step (.consume _ u channel rfl))

theorem reachable_invariant (h : Reachable ssh s) : Invariant ssh s := by
  induction h with
  | start => exact invariant_start
  | step _ step ih => exact invariant_step ih step

theorem Reachable.forwarded_le (h : Reachable ssh s) : s.forwarded ≤ s.emitted.length := by
  obtain ⟨_, _, acc⟩ := reachable_invariant h
  exact acc.bound

theorem Reachable.forwardAll (h : Reachable ssh s) :
    ∃ t, Reachable ssh t ∧ t.emitted = s.emitted ∧ t.forwarded = t.emitted.length := by
  induction hn : s.emitted.length - s.forwarded generalizing s with
  | zero =>
    have := h.forwarded_le
    exact ⟨s, h, rfl, by omega⟩
  | succ n ih =>
    have hlt : s.forwarded < s.emitted.length := by omega
    have next := h.step (.forward s _ (List.getElem?_eq_getElem hlt))
    obtain ⟨t, ht, he, hf⟩ := ih next (by simp only; omega)
    exact ⟨t, ht, he, hf⟩

/-- The tasks can always come to rest without another notice. -/
theorem Reachable.exists_settled (h : Reachable ssh s) :
    ∃ t, Reachable ssh t ∧ t.Settled ∧ t.emitted = s.emitted := by
  obtain ⟨t, ht, he, hf⟩ := h.forwardAll
  obtain ⟨u, hu, he', hf', hl⟩ : ∃ u, Reachable ssh u ∧ u.emitted = t.emitted ∧
      u.forwarded = t.forwarded ∧ u.listing = .idle := by
    cases hl : t.listing with
    | idle => exact ⟨t, ht, rfl, rfl, hl⟩
    | announced => exact ⟨_, ht.step (.fail t hl), rfl, rfl, rfl⟩
    | fetched instances => exact ⟨_, ht.step (.deliver t instances hl), rfl, rfl, rfl⟩
  refine ⟨_, hu.drain, ⟨?_, hl, rfl⟩, he'.trans he⟩
  rw [hf', hf, he']

/-- The sets of a reconciler that has applied everything are those of all notices. -/
theorem perm_sets (h : Reachable ssh s) (settled : s.Settled) (side : Side) (id : SchedulerId) :
    (s.reconciler.store.sets side id).toList.Perm
      (((Reconciler.init ssh).applyAll (s.emitted.map .event)).store.sets side id).toList := by
  obtain ⟨applied, hr, acc⟩ := reachable_invariant h
  obtain ⟨instances, i, ⟨_, k, hik, _, depicts⟩, hl⟩ := acc.log
  have rest : s.since i = s.emitted.drop i := by
    rw [State.since, settled.forwarded, List.take_length]
  rw [settled.channel, List.append_nil, rest] at hl
  rw [hr, Reconciler.sets_applyAll, Reconciler.sets_applyAll, EffectiveLog.ofUpdates_events,
    EffectiveLog.perm_sets_iff, hl]
  exact depicts.settle_drop hik side id

theorem mem_sets_iff (h : Reachable ssh s) (settled : s.Settled) (side : Side) (id : SchedulerId)
    (b : Backend) :
    b ∈ (s.reconciler.store.sets side id).toList ↔
      ((BackendStore.changesAt ssh side id b.key s.emitted).rtakeWhile
        BackendSet.Change.isAdd).head? = some (.add b) := by
  rw [(perm_sets h settled side id).mem_iff, Reconciler.sets_applyAll,
    EffectiveLog.ofUpdates_events, EffectiveLog.mem_sets_iff]

/-- Whatever the order of the steps, once all notices have been applied and no update or listing
is under way, the sets of every id are, up to their order, those of a fresh reconciler that is
given all notices in order. So they hold under every address and port what the notices added
there first after they last removed it. -/
theorem converges (h : Reachable ssh s) (settled : s.Settled) (id : SchedulerId) :
    let told := (Reconciler.init ssh).applyAll (s.emitted.map .event)
    let added := fun side (b : Backend) =>
      ((BackendStore.changesAt ssh side id b.key s.emitted).rtakeWhile
        BackendSet.Change.isAdd).head?
    (s.reconciler.external id).toList.Perm (told.external id).toList ∧
      (s.reconciler.internal id).toList.Perm (told.internal id).toList ∧
      (∀ b, b ∈ (s.reconciler.external id).toList ↔ added .external b = some (.add b)) ∧
      ∀ b, b ∈ (s.reconciler.internal id).toList ↔ added .internal b = some (.add b) :=
  ⟨perm_sets h settled .external id, perm_sets h settled .internal id,
    mem_sets_iff h settled .external id, mem_sets_iff h settled .internal id⟩

/-- A listing is taken while its instance runs, and delivered after the notice that the instance
is gone. -/
theorem converges_past_late_listing :
    let i : Instance := ⟨"web-1", 0, .running, false, "10.0.0.1", none, [⟨8080, 9001⟩]⟩
    let s : State :=
      { emitted := [.created i, .removed i]
        forwarded := 2
        channel := []
        listing := .idle
        reconciler := (Reconciler.init 2222).applyAll
          [.listingStarted, .event (.created i), .event (.removed i), .listing [i]] }
    let told := (Reconciler.init 2222).applyAll (s.emitted.map .event)
    let added := fun side (b : Backend) =>
      ((BackendStore.changesAt 2222 side "web-1" b.key s.emitted).rtakeWhile
        BackendSet.Change.isAdd).head?
    Reachable 2222 s ∧ s.Settled ∧
      (s.reconciler.external "web-1").toList.Perm (told.external "web-1").toList ∧
      (s.reconciler.internal "web-1").toList.Perm (told.internal "web-1").toList ∧
      (∀ b, b ∈ (s.reconciler.external "web-1").toList ↔ added .external b = some (.add b)) ∧
      ∀ b, b ∈ (s.reconciler.internal "web-1").toList ↔ added .internal b = some (.add b) := by
  intro i s told added
  let r := Reconciler.init 2222
  have given : Reachable 2222 ⟨[.created i], 0, [], .idle, r⟩ := Reachable.start.step (.emit _ _)
  have announced : Reachable 2222 ⟨[.created i], 0, [.listingStarted], .announced, r⟩ :=
    given.step (.announce _ rfl)
  have fetched : Reachable 2222 ⟨[.created i], 0, [.listingStarted], .fetched [i], r⟩ :=
    announced.step (.fetch _ [i] rfl (depicts_created 2222 [i]))
  have gone :
      Reachable 2222 ⟨[.created i, .removed i], 0, [.listingStarted], .fetched [i], r⟩ :=
    fetched.step (.emit _ _)
  have forwarded : Reachable 2222 ⟨[.created i, .removed i], 2,
      [.listingStarted, .event (.created i), .event (.removed i)], .fetched [i], r⟩ :=
    (gone.step (.forward _ (.created i) rfl)).step (.forward _ (.removed i) rfl)
  have reached : Reachable 2222 s := (forwarded.step (.deliver _ [i] rfl)).drain
  have settled : s.Settled := ⟨rfl, rfl, rfl⟩
  exact ⟨reached, settled, converges reached settled "web-1"⟩

end Interleaving

end MeshControl
