import MeshControl.Event
import MeshControl.Table

/-!
# Reconciling backend sets

The live backends of every scheduler process are kept from two sources: notices of change, and
listings of all instances that are taken from time to time. A listing replaces what is known,
but the notices that came while it was under way are newer than it, so they are kept in a
journal and applied once more on top of it.

## Main definitions

* `BackendStore` — the external and internal backend sets by scheduler process.
* `BackendStore.track`, `BackendStore.untrack`, `BackendStore.replay` — the effect of a notice.
* `Reconciler`, `Reconciler.apply` — the store with its journal, and the effect of an update.
-/

namespace MeshControl

/-- The backend sets of every scheduler process that has been observed. -/
structure BackendStore where
  external : Table SchedulerId BackendSet
  internal : Table SchedulerId BackendSet
  deriving DecidableEq, Inhabited

namespace BackendStore

def empty : BackendStore := ⟨∅, ∅⟩

def setOf (t : Table SchedulerId BackendSet) (id : SchedulerId) : BackendSet := (t.get? id).getD ∅

/-- Add the backends of an instance. One without an external backend is passed over. -/
def track (ssh : UInt16) (s : BackendStore) (i : Instance) : BackendStore :=
  match i.externalBackend ssh with
  | none => s
  | some external =>
    let inside := setOf s.internal i.processId
    ⟨s.external.insert i.processId ((setOf s.external i.processId).insert external),
     s.internal.insert i.processId
       (match i.internalBackend ssh with
        | some internal => inside.insert internal
        | none => inside)⟩

/-- Take an endpoint out of the set of an id, if both are there. -/
def withdraw (t : Table SchedulerId BackendSet) (id : SchedulerId) :
    Option Backend → Table SchedulerId BackendSet
  | none => t
  | some endpoint =>
    match t.get? id with
    | none => t
    | some set => t.insert id (set.remove endpoint)

/-- Take out the endpoints of an instance, whatever its state. -/
def untrack (ssh : UInt16) (s : BackendStore) (i : Instance) : BackendStore :=
  ⟨withdraw s.external i.processId (i.externalEndpoint ssh),
   withdraw s.internal i.processId (i.internalEndpoint ssh)⟩

def replay (ssh : UInt16) (s : BackendStore) : InstanceEvent → BackendStore
  | .created i => s.track ssh i
  | .changed before after => (s.untrack ssh before).track ssh after
  | .removed i => s.untrack ssh i

def replayAll (ssh : UInt16) (s : BackendStore) (events : List InstanceEvent) : BackendStore :=
  events.foldl (replay ssh) s

def ofListing (ssh : UInt16) (instances : List Instance) : BackendStore :=
  instances.foldl (track ssh) empty

/-- Every given id with a set, which is empty where there was none. -/
def withIds (t : Table SchedulerId BackendSet) (ids : List SchedulerId) :
    Table SchedulerId BackendSet :=
  ids.foldl (fun t id => if t.contains id then t else t.insert id ∅) t

/-- Every id that another store has observed. -/
def keepIds (s : BackendStore) (ids : List SchedulerId) : BackendStore :=
  ⟨withIds s.external ids, withIds s.internal ids⟩

end BackendStore

/-- What the sources tell. -/
inductive Update where
  | event (e : InstanceEvent)
  /-- A listing is being fetched from now on. -/
  | listingStarted
  /-- A listing has arrived. -/
  | listing (instances : List Instance)
  deriving DecidableEq, Inhabited

structure Reconciler where
  /-- The port that is never an application port. -/
  sshPort : UInt16
  store : BackendStore
  /-- The notices since a listing began to be fetched, if one did. -/
  journal : Option (List InstanceEvent)
  deriving DecidableEq, Inhabited

namespace Reconciler

def init (sshPort : UInt16) : Reconciler := ⟨sshPort, .empty, none⟩

def apply (r : Reconciler) : Update → Reconciler
  | .event e =>
    { r with store := r.store.replay r.sshPort e, journal := r.journal.map (· ++ [e]) }
  | .listingStarted => { r with journal := some [] }
  | .listing instances =>
    let fresh := (BackendStore.ofListing r.sshPort instances).keepIds r.store.external.keys
    { r with store := fresh.replayAll r.sshPort (r.journal.getD []), journal := none }

def applyAll (r : Reconciler) (updates : List Update) : Reconciler := updates.foldl apply r

/-! ## Questions -/

def external (r : Reconciler) (id : SchedulerId) : BackendSet :=
  BackendStore.setOf r.store.external id

def internal (r : Reconciler) (id : SchedulerId) : BackendSet :=
  BackendStore.setOf r.store.internal id

def isTracked (r : Reconciler) (id : SchedulerId) : Bool := r.store.external.contains id

/-- Every id that has been observed, with its two sets, in the order of the ids. -/
def list (r : Reconciler) : List (SchedulerId × BackendSet × BackendSet) :=
  r.store.external.entries.map fun e => (e.1, e.2, r.internal e.1)

/-! ## Laws -/

@[simp] theorem applyAll_nil (r : Reconciler) : r.applyAll [] = r := rfl

@[simp] theorem applyAll_cons (r : Reconciler) (u : Update) (us : List Update) :
    r.applyAll (u :: us) = (r.apply u).applyAll us := rfl

theorem applyAll_append (r : Reconciler) (us vs : List Update) :
    r.applyAll (us ++ vs) = (r.applyAll us).applyAll vs :=
  List.foldl_append

@[simp] theorem sshPort_apply (r : Reconciler) (u : Update) : (r.apply u).sshPort = r.sshPort := by
  cases u <;> rfl

end Reconciler

end MeshControl
