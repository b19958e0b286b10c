import MeshControl.Proofs.Reconciler.Provenance

/-!
# Updates that come twice

A notice replayed twice in a row leaves a store as it is after the first time, order included. So
a journal that holds a notice twice has the effect of one that holds it once, and reconcilers whose
journals have the same effect cannot be told apart by anything that follows. Only a listing that
was announced must not come twice, since the first one uses up the journal.

## Main definitions

* `BackendStore.observed` — the ids with a set on one side.
* `BackendStore.replay_replay` — the effect of a notice is idempotent.
* `Reconciler.Alike` — the same store, and journals with the same effect.
* `Update.Repeatable` — what may come twice.
* `Reconciler.observed_once` — whatever follows, it is as if it had come once.
-/

namespace MeshControl

open BackendSet (Change)

/-! ## Sets -/

namespace BackendSet

/-- A removal and an insertion after it come to the same when they are made again. -/
theorem changeAll_changeAll (s : BackendSet) (lost gained : Option Backend) :
    let cs := lost.toList.map Change.remove ++ gained.toList.map Change.add
    (s.changeAll cs).changeAll cs = s.changeAll cs := by
  cases lost with
  | none =>
    cases gained with
    | none => rfl
    | some b => exact insert_of_hasEndpoint (hasEndpoint_insert_self s b)
  | some a =>
    have absent : ¬ (s.remove a).hasEndpoint a := by rw [hasEndpoint_remove_self]; decide
    cases gained with
    | none => exact remove_of_not_hasEndpoint absent
    | some b =>
      have again : (((s.remove a).insert b).remove a).insert b = (s.remove a).insert b := by
        rw [remove_insert absent]
        split_ifs
        · rfl
        · exact insert_of_hasEndpoint (hasEndpoint_insert_self _ b)
      exact again

end BackendSet

/-! ## Notices -/

namespace InstanceEvent

/-- A notice removes at most one backend of a set, and then inserts at most one. -/
theorem exists_changes (ssh : UInt16) (side : Side) (id : SchedulerId) (e : InstanceEvent) :
    ∃ lost gained : Option Backend, e.changes ssh side id =
      lost.toList.map .remove ++ gained.toList.map .add := by
  have additions : ∀ i : Instance, ∃ gained : Option Backend,
      i.additions ssh side id = gained.toList.map .add := by
    intro i
    unfold Instance.additions
    split_ifs
    · exact ⟨_, rfl⟩
    · exact ⟨none, rfl⟩
  have removals : ∀ i : Instance, ∃ lost : Option Backend,
      i.removals ssh side id = lost.toList.map .remove := by
    intro i
    unfold Instance.removals
    split_ifs
    · exact ⟨_, rfl⟩
    · exact ⟨none, rfl⟩
  cases e with
  | created i =>
    obtain ⟨gained, h⟩ := additions i
    exact ⟨none, gained, h⟩
  | changed before after =>
    obtain ⟨lost, hl⟩ := removals before
    obtain ⟨gained, hg⟩ := additions after
    exact ⟨lost, gained, by rw [changes, hl, hg]⟩
  | removed i =>
    obtain ⟨lost, h⟩ := removals i
    exact ⟨lost, none, by rw [changes, h, Option.toList_none, List.map_nil, List.append_nil]⟩

/-- Whether a notice makes an id known. -/
def observes (ssh : UInt16) (id : SchedulerId) : InstanceEvent → Bool
  | created i | changed _ i => id == i.processId && (i.externalBackend ssh).isSome
  | removed _ => false

end InstanceEvent

/-! ## Stores -/

namespace BackendStore

variable {s t : BackendStore} {ssh : UInt16} {side : Side} {id : SchedulerId}

/-- Whether an id has a set on one side. -/
def observed (s : BackendStore) : Side → SchedulerId → Bool
  | .external => s.external.contains
  | .internal => s.internal.contains

theorem get?_eq_ite (t : Table SchedulerId BackendSet) (id : SchedulerId) :
    t.get? id = if t.contains id then some (setOf t id) else none := by
  cases h : t.get? id <;> simp [Table.contains, setOf, h]

/-- A store is known by its ids and their sets. -/
theorem ext_observed (ids : ∀ side id, s.observed side id = t.observed side id)
    (sets : ∀ side id, s.sets side id = t.sets side id) : s = t := by
  have external : s.external = t.external := Table.eq_of_get? fun id => by
    rw [get?_eq_ite, get?_eq_ite]
    exact congrArg₂ (fun known set => if known = true then some set else none)
      (ids .external id) (sets .external id)
  have internal : s.internal = t.internal := Table.eq_of_get? fun id => by
    rw [get?_eq_ite, get?_eq_ite]
    exact congrArg₂ (fun known set => if known = true then some set else none)
      (ids .internal id) (sets .internal id)
  cases s
  cases t
  simp_all

theorem observed_track (s : BackendStore) (i : Instance) :
    (s.track ssh i).observed side id =
      ((id == i.processId && (i.externalBackend ssh).isSome) || s.observed side id) := by
  unfold track
  cases i.externalBackend ssh with
  | none => simp
  | some b => cases side <;> simp [observed, contains_insert]

theorem observed_untrack (s : BackendStore) (i : Instance) :
    (s.untrack ssh i).observed side id = s.observed side id := by
  cases side <;> exact contains_withdraw _ _ _ _

theorem observed_replay (s : BackendStore) (e : InstanceEvent) :
    (s.replay ssh e).observed side id = (e.observes ssh id || s.observed side id) := by
  cases e with
  | created i => exact observed_track s i
  | changed before after =>
    rw [replay, observed_track, observed_untrack, InstanceEvent.observes]
  | removed i => rw [replay, observed_untrack, InstanceEvent.observes, Bool.false_or]

theorem observed_keepIds (s : BackendStore) (ids : List SchedulerId) :
    (s.keepIds ids).observed side id = (ids.contains id || s.observed side id) := by
  cases side <;> exact contains_withIds _ _ _

/-- A notice that is replayed again changes nothing. -/
theorem replay_replay (s : BackendStore) (e : InstanceEvent) :
    (s.replay ssh e).replay ssh e = s.replay ssh e := by
  refine ext_observed (fun side id => ?_) fun side id => ?_
  · rw [observed_replay, observed_replay, Bool.or_self_left]
  · obtain ⟨lost, gained, changes⟩ := e.exists_changes ssh side id
    rw [sets_replay, sets_replay, changes, BackendSet.changeAll_changeAll]

theorem replayAll_append_replay (s : BackendStore) (log : List InstanceEvent) (e : InstanceEvent) :
    s.replayAll ssh (log ++ [e]) = (s.replayAll ssh log).replay ssh e := by
  rw [replayAll_append]
  rfl

/-- The ids that are known after a listing are those that it keeps if it comes again. -/
theorem keepIds_keys (paired : s.Paired) (ids : List SchedulerId) :
    s.keepIds (s.keepIds ids).external.keys = s.keepIds ids := by
  have same : ∀ side id, s.observed side id = s.external.contains id := by
    intro side id
    cases side with
    | external => rfl
    | internal => exact (paired id).symm
  have known : ∀ id, (s.keepIds ids).external.contains id =
      (ids.contains id || s.external.contains id) := fun id => contains_withIds _ _ _
  refine ext_observed (fun side id => ?_) fun side id => ?_
  · rw [observed_keepIds, observed_keepIds, contains_keys, known, same, Bool.or_assoc,
      Bool.or_self]
  · rw [sets_keepIds, sets_keepIds]

end BackendStore

/-! ## Reconcilers -/

/-- What may come twice: anything but a listing that was announced. -/
def Update.Repeatable (r : Reconciler) : Update → Prop
  | .event _ | .listingStarted => True
  | .listing _ => r.journal = none

namespace Reconciler

/-- Two reconcilers have the same store, and either no journals, or journals with the same effect
on any store. -/
structure Alike (r r' : Reconciler) : Prop where
  sshPort : r'.sshPort = r.sshPort
  store : r'.store = r.store
  announced : r'.journal.isSome = r.journal.isSome
  journal : ∀ s : BackendStore, s.replayAll r.sshPort (r'.journal.getD []) =
    s.replayAll r.sshPort (r.journal.getD [])

variable {r r' : Reconciler}

theorem Alike.refl (r : Reconciler) : r.Alike r := ⟨rfl, rfl, rfl, fun _ => rfl⟩

/-- Reconcilers that are alike stay so, whatever comes. -/
theorem Alike.apply (h : r.Alike r') (u : Update) : (r.apply u).Alike (r'.apply u) := by
  cases u with
  | event e =>
    refine ⟨h.sshPort, ?_, ?_, fun s => ?_⟩
    · simp only [Reconciler.apply, h.store, h.sshPort]
    · simp only [Reconciler.apply, Option.isSome_map, h.announced]
    · have announced := h.announced
      have journal := h.journal s
      cases hj : r.journal <;> cases hj' : r'.journal <;> rw [hj, hj'] at announced journal
      · simp only [Reconciler.apply, hj, hj', Option.map_none]
      · simp at announced
      · simp at announced
      · simp only [Reconciler.apply, hj, hj', Option.map_some, Option.getD_some,
          BackendStore.replayAll_append_replay] at journal ⊢
        rw [journal]
  | listingStarted => exact ⟨h.sshPort, h.store, rfl, fun _ => rfl⟩
  | listing instances =>
    refine ⟨h.sshPort, ?_, rfl, fun _ => rfl⟩
    simp only [Reconciler.apply, h.store, h.sshPort, h.journal]

theorem Alike.applyAll (h : r.Alike r') (updates : List Update) :
    (r.applyAll updates).Alike (r'.applyAll updates) := by
  induction updates generalizing r r' with
  | nil => exact h
  | cons u updates ih => exact ih (h.apply u)

/-- What may come twice leaves a reconciler that is alike. -/
theorem alike_apply_apply {u : Update} (repeatable : u.Repeatable r) :
    (r.apply u).Alike ((r.apply u).apply u) := by
  cases u with
  | event e =>
    refine ⟨rfl, BackendStore.replay_replay r.store e, ?_, fun s => ?_⟩
    · simp only [Reconciler.apply, Option.isSome_map]
    · cases journal : r.journal with
      | none => simp only [Reconciler.apply, journal, Option.map_none]
      | some log =>
        simp only [Reconciler.apply, journal, Option.map_some, Option.getD_some,
          BackendStore.replayAll_append_replay, BackendStore.replay_replay]
  | listingStarted => exact Alike.refl _
  | listing instances =>
    have unannounced : r.journal = none := repeatable
    refine ⟨rfl, ?_, rfl, fun _ => rfl⟩
    simp only [Reconciler.apply, unannounced, Option.getD_none, BackendStore.replayAll,
      List.foldl_nil, BackendStore.keepIds_keys (BackendStore.paired_ofListing instances)]

/-- A notice, an announcement, or a listing that was not announced may come twice in a row. Whatever
follows, the ids that are known and the sets on both sides, in their order, are those that there
would be if it had come once. -/
theorem observed_once (r : Reconciler) (u : Update) (repeatable : u.Repeatable r)
    (later : List Update) :
    let once := (r.apply u).applyAll later
    let twice := ((r.apply u).apply u).applyAll later
    twice.list = once.list ∧ ∀ id, twice.isTracked id = once.isTracked id ∧
      twice.external id = once.external id ∧ twice.internal id = once.internal id := by
  intro once twice
  have store : twice.store = once.store := ((alike_apply_apply repeatable).applyAll later).store
  refine ⟨?_, fun id => ⟨?_, ?_, ?_⟩⟩
  · simp only [list, internal, store]
  · simp only [isTracked, store]
  · simp only [external, store]
  · simp only [internal, store]

/-- An instance changes its ports while a listing is being fetched that still has the old ones. -/
theorem observed_once_under_way :
    let old : Instance :=
      ⟨"s-1", 0, .running, false, "10.0.0.1", some "10.255.0.1", [⟨8080, 9001⟩]⟩
    let new : Instance := { old with ports := [⟨8081, 9001⟩] }
    let r := (init 2222).applyAll [.event (.created old), .listingStarted]
    let u : Update := .event (.changed old new)
    let later : List Update := [.listing [old]]
    u.Repeatable r ∧ ((r.apply u).apply u).journal = some [.changed old new, .changed old new] ∧
      (((r.apply u).apply u).applyAll later).external "s-1" =
        ((r.apply u).applyAll later).external "s-1" ∧
      ((r.apply u).applyAll later).external "s-1" = .ofList [⟨"10.0.0.1", 9001, 8081⟩] := by
  intro old new r u later
  obtain ⟨-, same⟩ := observed_once r u trivial later
  exact ⟨trivial, rfl, (same "s-1").2.1, by decide⟩

/-- A listing that was announced loses the notices of its journal when it comes again. -/
example :
    let i : Instance := ⟨"s-1", 0, .running, false, "10.0.0.1", none, [⟨8080, 9001⟩]⟩
    let r := (init 2222).applyAll [.listingStarted, .event (.created i)]
    (r.apply (.listing [])).external "s-1" = .ofList [⟨"10.0.0.1", 9001, 8080⟩] ∧
      ((r.apply (.listing [])).apply (.listing [])).external "s-1" = ∅ := by
  decide

end Reconciler

end MeshControl
