import MeshControl.Proofs.Reconciler.EffectiveLog

/-!
# Listings that show what notices leave

A listing depicts notices if a reconciler that is given the listing alone has the same sets, up
to their order, as one that is given the notices. Notices that are applied on top of a listing
bring it up to date if they begin no later than the listing itself. Those that it knows already
are harmless, since at every key going through a row of changes once more leaves the same.

## Main definitions

* `Depicts` — a listing shows what notices leave.
* `Depicts.settle_drop` — a listing is brought up to date.
-/

namespace MeshControl

open BackendStore (changesAt changesAt_append)

/-- A reconciler that is given the listing alone has the sets, up to their order, of one that is
given the notices. -/
def Depicts (ssh : UInt16) (instances : List Instance) (events : List InstanceEvent) : Prop :=
  let listed := (Reconciler.init ssh).apply (.listing instances)
  let told := (Reconciler.init ssh).applyAll (events.map .event)
  ∀ id, (listed.external id).toList.Perm (told.external id).toList ∧
    (listed.internal id).toList.Perm (told.internal id).toList

namespace EffectiveLog

theorem ofUpdates_events (events : List InstanceEvent) :
    ofUpdates (events.map .event) = ⟨events, none⟩ := by
  induction events using List.reverseRecOn with
  | nil => rfl
  | append_singleton events e ih =>
    rw [List.map_append, List.map_singleton, ofUpdates_concat, ih]
    rfl

/-- Two logs leave the same sets up to their order when they leave the same at every key. -/
theorem perm_sets_iff (l l' : EffectiveLog) (ssh : UInt16) (side : Side) (id : SchedulerId) :
    (l.sets ssh side id).toList.Perm (l'.sets ssh side id).toList ↔
      ∀ k, BackendSet.settle none (changesAt ssh side id k l.log) =
        BackendSet.settle none (changesAt ssh side id k l'.log) := by
  simp only [(l.distinct_sets ssh side id).perm_iff (l'.distinct_sets ssh side id), get?_sets]

end EffectiveLog

theorem depicts_iff {ssh : UInt16} {instances : List Instance} {events : List InstanceEvent} :
    Depicts ssh instances events ↔ ∀ side id k,
      BackendSet.settle none (changesAt ssh side id k (instances.map .created)) =
        BackendSet.settle none (changesAt ssh side id k events) := by
  have listed : ∀ side id, ((Reconciler.init ssh).apply (.listing instances)).store.sets side id
      = (EffectiveLog.mk (instances.map .created) none).sets ssh side id := by
    intro side id
    simpa [EffectiveLog.ofUpdates, EffectiveLog.apply, EffectiveLog.empty] using
      Reconciler.sets_applyAll ssh [.listing instances] side id
  have told : ∀ side id,
      ((Reconciler.init ssh).applyAll (events.map .event)).store.sets side id
        = (EffectiveLog.mk events none).sets ssh side id := by
    intro side id
    rw [Reconciler.sets_applyAll, EffectiveLog.ofUpdates_events]
  have same : ∀ side id,
      (((Reconciler.init ssh).apply (.listing instances)).store.sets side id).toList.Perm
        (((Reconciler.init ssh).applyAll (events.map .event)).store.sets side id).toList ↔
      ∀ k, BackendSet.settle none (changesAt ssh side id k (instances.map .created)) =
        BackendSet.settle none (changesAt ssh side id k events) := by
    intro side id
    rw [listed, told, EffectiveLog.perm_sets_iff]
  constructor
  · intro h side id
    cases side with
    | external => exact (same .external id).mp (h id).1
    | internal => exact (same .internal id).mp (h id).2
  · intro h id
    exact ⟨(same .external id).mpr (h .external id), (same .internal id).mpr (h .internal id)⟩

/-- Instances depict the notices of their creation. -/
theorem depicts_created (ssh : UInt16) (instances : List Instance) :
    Depicts ssh instances (instances.map .created) :=
  depicts_iff.mpr fun _ _ _ => rfl

/-- Notices that begin no later than a listing bring it up to date. -/
theorem Depicts.settle_drop {ssh : UInt16} {instances : List Instance}
    {events : List InstanceEvent} {i k : Nat} (h : Depicts ssh instances (events.take k))
    (hik : i ≤ k) (side : Side) (id : SchedulerId) (key : Backend.Key) :
    BackendSet.settle none
        (changesAt ssh side id key (instances.map .created ++ events.drop i)) =
      BackendSet.settle none (changesAt ssh side id key events) := by
  -- The notices before the listing's first, those that it knows already, and the later ones.
  let old := changesAt ssh side id key (events.take i)
  let known := changesAt ssh side id key ((events.take k).drop i)
  let new := changesAt ssh side id key (events.drop k)
  have htake : changesAt ssh side id key (events.take k) = old ++ known := by
    rw [← changesAt_append]
    congr 1
    conv_lhs => rw [← List.take_append_drop i (events.take k)]
    rw [List.take_take, Nat.min_eq_left hik]
  have hdrop : changesAt ssh side id key (events.drop i) = known ++ new := by
    rw [← changesAt_append]
    congr 1
    conv_lhs => rw [← List.take_append_drop (k - i) (events.drop i)]
    rw [List.take_drop, List.drop_drop, Nat.add_sub_cancel' hik]
  have hall : changesAt ssh side id key events = old ++ known ++ new := by
    rw [← htake, ← changesAt_append, List.take_append_drop]
  calc BackendSet.settle none (changesAt ssh side id key (instances.map .created ++ events.drop i))
      = BackendSet.settle (BackendSet.settle none (old ++ known)) (known ++ new) := by
        rw [changesAt_append, BackendSet.settle_append, depicts_iff.mp h, htake, hdrop]
    _ = BackendSet.settle none (old ++ known ++ new) := by
        simp only [BackendSet.settle_append, BackendSet.settle_settle]
    _ = BackendSet.settle none (changesAt ssh side id key events) := by rw [hall]

end MeshControl
