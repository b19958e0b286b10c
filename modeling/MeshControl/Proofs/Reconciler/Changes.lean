import MeshControl.Proofs.BackendSet
import MeshControl.Reconciler.Basic

/-!
# The changes that notices make

A notice changes the backend set of each scheduler process on either side of the mesh by a row
of insertions and removals that does not depend on what is stored. The sets of a store after
notices are therefore the sets before, changed by the rows of all notices one after the other.

## Main definitions

* `Side` — outside or inside the mesh.
* `BackendStore.sets` — the set of an id on one side.
* `InstanceEvent.changes` — the changes that a notice makes to that set.
* `BackendStore.changesAt` — those that notices in a row make to one key of it.
* `BackendStore.sets_replayAll` — the sets after notices in a row.
-/

namespace MeshControl

open BackendSet (Change)

inductive Side where
  | external
  | internal
  deriving DecidableEq

/-- The set of an id on one side. -/
def BackendStore.sets (s : BackendStore) : Side → SchedulerId → BackendSet
  | .external => setOf s.external
  | .internal => setOf s.internal

/-! ## The changes of a notice -/

namespace Instance

/-- What is inserted for an instance that appears. Nothing is inserted inside the mesh for one
that cannot be reached from outside. -/
def gained (i : Instance) (ssh : UInt16) : Side → Option Backend
  | .external => i.externalBackend ssh
  | .internal => (i.externalBackend ssh).bind fun _ => i.internalBackend ssh

/-- What is removed for an instance that goes away. -/
def lost (i : Instance) (ssh : UInt16) : Side → Option Backend
  | .external => i.externalEndpoint ssh
  | .internal => i.internalEndpoint ssh

/-- The changes to the set of an id when an instance appears. -/
def additions (i : Instance) (ssh : UInt16) (side : Side) (id : SchedulerId) : List Change :=
  if i.processId = id then (i.gained ssh side).toList.map .add else []

/-- The changes to the set of an id when an instance goes away. -/
def removals (i : Instance) (ssh : UInt16) (side : Side) (id : SchedulerId) : List Change :=
  if i.processId = id then (i.lost ssh side).toList.map .remove else []

end Instance

/-- The changes to the set of an id that a notice makes. -/
def InstanceEvent.changes (ssh : UInt16) (side : Side) (id : SchedulerId) :
    InstanceEvent → List Change
  | .created i => i.additions ssh side id
  | .changed before after => before.removals ssh side id ++ after.additions ssh side id
  | .removed i => i.removals ssh side id

namespace BackendStore

/-- The changes to one key of the set of an id that notices in a row make. -/
def changesAt (ssh : UInt16) (side : Side) (id : SchedulerId) (k : Backend.Key)
    (log : List InstanceEvent) : List Change :=
  (log.flatMap (·.changes ssh side id)).filter (·.key = k)

theorem changesAt_append (ssh : UInt16) (side : Side) (id : SchedulerId) (k : Backend.Key)
    (log log' : List InstanceEvent) :
    changesAt ssh side id k (log ++ log') =
      changesAt ssh side id k log ++ changesAt ssh side id k log' := by
  simp [changesAt]

/-! ## One table -/

theorem setOf_insert (t : Table SchedulerId BackendSet) (id id' : SchedulerId) (s : BackendSet) :
    setOf (t.insert id s) id' = if id = id' then s else setOf t id' := by
  simp only [setOf, Table.get?_insert, Std.LawfulEqCmp.compare_eq_iff_eq, eq_comm (a := id')]
  split_ifs <;> rfl

theorem setOf_withdraw (t : Table SchedulerId BackendSet) (id id' : SchedulerId)
    (b : Option Backend) :
    setOf (withdraw t id b) id' =
      (setOf t id').changeAll (if id = id' then b.toList.map .remove else []) := by
  cases b with
  | none => simp [withdraw]
  | some b =>
    cases h : t.get? id with
    | none =>
      -- Nothing is stored under the id, and a removal leaves the empty set empty.
      simp only [withdraw, h]
      split_ifs with hid
      · subst hid
        simp only [setOf, h]
        rfl
      · rfl
    | some s =>
      simp only [withdraw, h, setOf_insert]
      split_ifs with hid
      · subst hid
        simp only [setOf, h]
        rfl
      · rfl

theorem setOf_withIds (t : Table SchedulerId BackendSet) (ids : List SchedulerId)
    (id : SchedulerId) : setOf (withIds t ids) id = setOf t id := by
  induction ids generalizing t with
  | nil => rfl
  | cons i ids ih =>
    rw [withIds, List.foldl_cons, ← withIds, ih]
    split_ifs with h
    · rfl
    · rw [setOf_insert]
      split_ifs with hid
      · subst hid
        have absent : t.get? i = none := by simpa [Table.contains] using h
        simp [setOf, absent]
      · rfl

/-! ## The whole store -/

@[simp] theorem sets_empty (side : Side) (id : SchedulerId) :
    BackendStore.empty.sets side id = BackendSet.empty := by
  cases side <;> rfl

@[simp] theorem sets_keepIds (s : BackendStore) (ids : List SchedulerId) (side : Side)
    (id : SchedulerId) : (s.keepIds ids).sets side id = s.sets side id := by
  cases side <;> exact setOf_withIds _ _ _

theorem sets_track (ssh : UInt16) (s : BackendStore) (i : Instance) (side : Side)
    (id : SchedulerId) :
    (s.track ssh i).sets side id = (s.sets side id).changeAll (i.additions ssh side id) := by
  cases hext : i.externalBackend ssh with
  | none =>
    have nothing : i.additions ssh side id = [] := by
      cases side <;> simp [Instance.additions, Instance.gained, hext]
    simp [track, hext, nothing]
  | some b =>
    cases side with
    | external =>
      simp only [track, hext, sets, setOf_insert, Instance.additions, Instance.gained]
      split_ifs with hid
      · subst hid; rfl
      · rfl
    | internal =>
      simp only [track, hext, sets, setOf_insert, Instance.additions, Instance.gained]
      split_ifs with hid
      · subst hid
        cases i.internalBackend ssh <;> rfl
      · rfl

theorem sets_untrack (ssh : UInt16) (s : BackendStore) (i : Instance) (side : Side)
    (id : SchedulerId) :
    (s.untrack ssh i).sets side id = (s.sets side id).changeAll (i.removals ssh side id) := by
  cases side <;> exact setOf_withdraw _ _ _ _

theorem sets_replay (ssh : UInt16) (s : BackendStore) (e : InstanceEvent) (side : Side)
    (id : SchedulerId) :
    (s.replay ssh e).sets side id = (s.sets side id).changeAll (e.changes ssh side id) := by
  cases e with
  | created i => exact sets_track ssh s i side id
  | changed before after =>
    simp only [replay, InstanceEvent.changes, sets_track, sets_untrack,
      BackendSet.changeAll_append]
  | removed i => exact sets_untrack ssh s i side id

theorem sets_replayAll (ssh : UInt16) (s : BackendStore) (log : List InstanceEvent) (side : Side)
    (id : SchedulerId) :
    (s.replayAll ssh log).sets side id =
      (s.sets side id).changeAll (log.flatMap (·.changes ssh side id)) := by
  induction log generalizing s with
  | nil => rfl
  | cons e log ih =>
    rw [replayAll, List.foldl_cons, ← replayAll, ih, sets_replay, List.flatMap_cons,
      BackendSet.changeAll_append]

/-- A listing is as good as a notice of every instance in it. -/
theorem ofListing_eq_replayAll (ssh : UInt16) (instances : List Instance) :
    ofListing ssh instances = empty.replayAll ssh (instances.map .created) := by
  rw [replayAll, List.foldl_map]
  rfl

theorem replayAll_append (ssh : UInt16) (s : BackendStore) (log log' : List InstanceEvent) :
    s.replayAll ssh (log ++ log') = (s.replayAll ssh log).replayAll ssh log' :=
  List.foldl_append

/-- What notices leave at a key of an empty store. -/
theorem get?_sets_replayAll (ssh : UInt16) (log : List InstanceEvent) (side : Side)
    (id : SchedulerId) (k : Backend.Key) :
    ((empty.replayAll ssh log).sets side id).get? k =
      BackendSet.settle none (changesAt ssh side id k log) := by
  rw [sets_replayAll, sets_empty, BackendSet.get?_changeAll, BackendSet.get?_empty]
  rfl

theorem distinct_replayAll (ssh : UInt16) (log : List InstanceEvent) (side : Side)
    (id : SchedulerId) : ((empty.replayAll ssh log).sets side id).Distinct := by
  rw [sets_replayAll, sets_empty]
  exact BackendSet.distinct_empty.changeAll _

end BackendStore

end MeshControl
