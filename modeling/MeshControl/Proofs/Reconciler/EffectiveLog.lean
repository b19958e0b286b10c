import MeshControl.Proofs.Reconciler.Changes

/-!
# The log that a reconciler stands for

A reconciler changes its sets in place, rebuilds them from listings and goes through its journal
again. Its sets are nevertheless those of one plain log of notices, replayed from an empty
store: a listing resets the log to a notice for each of its instances, followed by the notices
that came since the listing was announced.

## Main definitions

* `EffectiveLog` — a log with the notices to be kept over the next listing.
* `Reconciler.Realizes` — a reconciler has the journal and the sets of a log.
* `Reconciler.applyAll_eq_replay` — so it is after any updates; what a set holds is read off the
  log.
-/

namespace MeshControl

/-- A log of notices, and those of them since a listing was announced, if one was. -/
structure EffectiveLog where
  log : List InstanceEvent
  pending : Option (List InstanceEvent)

namespace EffectiveLog

def empty : EffectiveLog := ⟨[], none⟩

def apply (l : EffectiveLog) : Update → EffectiveLog
  | .event e => ⟨l.log ++ [e], l.pending.map (· ++ [e])⟩
  | .listingStarted => ⟨l.log, some []⟩
  | .listing instances => ⟨instances.map .created ++ l.pending.getD [], none⟩

/-- The log of updates in a row. -/
def ofUpdates (updates : List Update) : EffectiveLog := updates.foldl apply empty

theorem ofUpdates_concat (updates : List Update) (u : Update) :
    ofUpdates (updates ++ [u]) = (ofUpdates updates).apply u := by
  simp [ofUpdates]

/-- The sets of the log. -/
def sets (l : EffectiveLog) (ssh : UInt16) : Side → SchedulerId → BackendSet :=
  (BackendStore.empty.replayAll ssh l.log).sets

theorem get?_sets (l : EffectiveLog) (ssh : UInt16) (side : Side) (id : SchedulerId)
    (k : Backend.Key) :
    (l.sets ssh side id).get? k =
      BackendSet.settle none (BackendStore.changesAt ssh side id k l.log) :=
  BackendStore.get?_sets_replayAll ssh l.log side id k

theorem distinct_sets (l : EffectiveLog) (ssh : UInt16) (side : Side) (id : SchedulerId) :
    (l.sets ssh side id).Distinct :=
  BackendStore.distinct_replayAll ssh l.log side id

/-- What a set holds under a key is what was added first after the last removal. -/
theorem mem_sets_iff (l : EffectiveLog) (ssh : UInt16) (side : Side) (id : SchedulerId)
    (b : Backend) :
    b ∈ (l.sets ssh side id).toList ↔
      ((BackendStore.changesAt ssh side id b.key l.log).rtakeWhile
        BackendSet.Change.isAdd).head? = some (.add b) := by
  rw [(l.distinct_sets ssh side id).mem_iff, get?_sets, BackendSet.settle_none_eq_some_iff]

end EffectiveLog

namespace Reconciler

/-- The journal is what the log keeps for the next listing, and the sets are those of the log. -/
structure Realizes (r : Reconciler) (l : EffectiveLog) : Prop where
  journal : r.journal = l.pending
  sets : ∀ side id, r.store.sets side id = l.sets r.sshPort side id

theorem realizes_init (ssh : UInt16) : (init ssh).Realizes .empty := ⟨rfl, fun _ _ => rfl⟩

theorem Realizes.apply {r : Reconciler} {l : EffectiveLog} (h : r.Realizes l) (u : Update) :
    (r.apply u).Realizes (l.apply u) := by
  cases u with
  | event e =>
    refine ⟨congrArg (Option.map (· ++ [e])) h.journal, fun side id => ?_⟩
    calc ((r.store.replay r.sshPort e).sets side id)
        = (r.store.sets side id).changeAll (e.changes r.sshPort side id) :=
          BackendStore.sets_replay _ _ _ _ _
      _ = (l.sets r.sshPort side id).changeAll (e.changes r.sshPort side id) := by rw [h.sets]
      _ = (BackendStore.empty.replayAll r.sshPort (l.log ++ [e])).sets side id := by
          rw [BackendStore.replayAll_append, BackendStore.sets_replayAll, List.flatMap_singleton]
          rfl
  | listingStarted => exact ⟨rfl, h.sets⟩
  | listing instances =>
    refine ⟨rfl, fun side id => ?_⟩
    -- The ids that stay tracked have empty sets, and so do those that were never tracked.
    have fresh : ∀ side id,
        ((BackendStore.ofListing r.sshPort instances).keepIds r.store.external.keys).sets side id
          = (BackendStore.empty.replayAll r.sshPort (instances.map .created)).sets side id := by
      intro side id
      rw [BackendStore.sets_keepIds, BackendStore.ofListing_eq_replayAll]
    simp only [Reconciler.apply, EffectiveLog.apply, EffectiveLog.sets,
      BackendStore.replayAll_append, h.journal]
    rw [BackendStore.sets_replayAll, fresh, ← BackendStore.sets_replayAll]

theorem Realizes.applyAll {r : Reconciler} {l : EffectiveLog} (h : r.Realizes l)
    (updates : List Update) : (r.applyAll updates).Realizes (updates.foldl .apply l) := by
  induction updates generalizing r l with
  | nil => exact h
  | cons u updates ih => exact ih (h.apply u)

theorem sshPort_applyAll (r : Reconciler) (updates : List Update) :
    (r.applyAll updates).sshPort = r.sshPort := by
  induction updates generalizing r with
  | nil => rfl
  | cons u updates ih => rw [applyAll_cons, ih, sshPort_apply]

/-- Whatever came before, the sets of a reconciler are those of its log. -/
theorem sets_applyAll (ssh : UInt16) (updates : List Update) (side : Side) (id : SchedulerId) :
    ((init ssh).applyAll updates).store.sets side id =
      (EffectiveLog.ofUpdates updates).sets ssh side id := by
  have h := ((realizes_init ssh).applyAll updates).sets side id
  rwa [sshPort_applyAll] at h

/-- After any updates the two sets of an id are, in the order of insertion, those of the log
replayed from an empty store. An address with a port is in the set of a side if and only if the
last change that the log makes to it there is an addition, and the backend that is there is the
first one added after the last removal. -/
theorem applyAll_eq_replay (ssh : UInt16) (updates : List Update) (id : SchedulerId) :
    let r := (init ssh).applyAll updates
    let l := EffectiveLog.ofUpdates updates
    let replayed := BackendStore.empty.replayAll ssh l.log
    let actions := fun side k => BackendStore.changesAt ssh side id k l.log
    r.external id = BackendStore.setOf replayed.external id ∧
    r.internal id = BackendStore.setOf replayed.internal id ∧
    (∀ side k, (∃ b ∈ (r.store.sets side id).toList, b.key = k) ↔
      ∃ b, (actions side k).getLast? = some (.add b)) ∧
    ∀ side b, b ∈ (r.store.sets side id).toList ↔
      ((actions side b.key).rtakeWhile BackendSet.Change.isAdd).head? = some (.add b) := by
  intro r l replayed actions
  have same : ∀ side, r.store.sets side id = l.sets ssh side id :=
    fun side => sets_applyAll ssh updates side id
  refine ⟨same .external, same .internal, fun side k => ?_, fun side b => ?_⟩
  · rw [same, ← BackendSet.isSome_get?_iff, EffectiveLog.get?_sets,
      BackendSet.isSome_settle_none_iff]
  · rw [same, EffectiveLog.mem_sets_iff]

end Reconciler

end MeshControl
