import MeshControl.Proofs.Reconciler.EffectiveLog
import MeshControl.Proofs.Table

/-!
# Where the stored backends come from

Every backend that a reconciler stores is that of a running instance it was told of: by the last
listing, or by a notice that the listing does not outdate. Ids are observed on both sides of the
mesh at once, and none is ever forgotten.

## Main definitions

* `InstanceEvent.Shows` — a notice tells of an instance that is there.
* `Vouched` — updates tell of an instance, and no later listing outdates what they tell.
* `Instance.backend` — the backend of an instance on a side of the mesh.
* `BackendStore.Paired`, `BackendStore.Keeps` — the same ids on both sides; all the ids of another
  store.
* `EffectiveLog.Accounted` — a log with updates that vouch for it.
-/

namespace MeshControl

open BackendSet (Change)

/-! ## Vouched instances -/

/-- A notice tells of an instance that is there. -/
def InstanceEvent.Shows (i : Instance) : InstanceEvent → Prop
  | .created j => j = i
  | .changed _ after => after = i
  | .removed _ => False

/-- The updates hold no listing. -/
def Unlisted (updates : List Update) : Prop := ∀ instances, Update.listing instances ∉ updates

/-- The updates tell of an instance, and nothing since has replaced what they tell. -/
inductive Vouched (i : Instance) : List Update → Prop where
  /-- It stands in the last listing. -/
  | listed {before after : List Update} {instances : List Instance} :
      i ∈ instances → Unlisted after → Vouched i (before ++ .listing instances :: after)
  /-- A notice told of it after the last listing. -/
  | told {before after : List Update} {e : InstanceEvent} :
      e.Shows i → Unlisted after → Vouched i (before ++ .event e :: after)
  /-- A notice told of it while the last listing was being fetched. -/
  | underWay {before after : List Update} {events : List InstanceEvent} {e : InstanceEvent}
      {instances : List Instance} : e ∈ events → e.Shows i → Unlisted after →
      Vouched i (before ++ .listingStarted :: events.map .event ++ .listing instances :: after)

theorem Unlisted.concat {updates : List Update} (h : Unlisted updates) {u : Update}
    (other : ∀ instances, u ≠ .listing instances) : Unlisted (updates ++ [u]) := by
  intro instances member
  rcases List.mem_append.mp member with old | new
  · exact h instances old
  · exact other instances (List.mem_singleton.mp new).symm

/-- What is not a listing outdates nothing. -/
theorem Vouched.concat {i : Instance} {updates : List Update} (h : Vouched i updates) {u : Update}
    (other : ∀ instances, u ≠ .listing instances) : Vouched i (updates ++ [u]) := by
  cases h with
  | listed member unlisted =>
    rw [List.append_assoc, List.cons_append]
    exact .listed member (unlisted.concat other)
  | told shown unlisted =>
    rw [List.append_assoc, List.cons_append]
    exact .told shown (unlisted.concat other)
  | underWay member shown unlisted =>
    rw [List.append_assoc, List.cons_append]
    exact .underWay member shown (unlisted.concat other)

/-! ## The log -/

/-- The updates vouch for every instance that the log tells of, and what is kept over the next
listing are the notices since its announcement. -/
structure EffectiveLog.Accounted (updates : List Update) (l : EffectiveLog) : Prop where
  log : ∀ e ∈ l.log, ∀ i, e.Shows i → Vouched i updates
  pending : ∀ events, l.pending = some events →
    ∃ before, updates = before ++ .listingStarted :: events.map .event

theorem unlisted_nil : Unlisted [] := fun _ => List.not_mem_nil

theorem EffectiveLog.Accounted.apply {updates : List Update} {l : EffectiveLog}
    (h : l.Accounted updates) (u : Update) : (l.apply u).Accounted (updates ++ [u]) := by
  cases u with
  | event e =>
    constructor
    · intro e' he' i shown
      rcases List.mem_append.mp he' with old | new
      · exact (h.log e' old i shown).concat fun _ => Update.noConfusion
      · obtain rfl := List.mem_singleton.mp new
        exact .told shown unlisted_nil
    · intro events kept
      obtain ⟨earlier, hearlier, rfl⟩ := Option.map_eq_some_iff.mp kept
      obtain ⟨before, rfl⟩ := h.pending earlier hearlier
      exact ⟨before, by simp⟩
  | listingStarted =>
    constructor
    · intro e he i shown
      exact (h.log e he i shown).concat fun _ => Update.noConfusion
    · rintro events ⟨⟩
      exact ⟨updates, rfl⟩
  | listing instances =>
    constructor
    · intro e he i shown
      rcases List.mem_append.mp he with stated | kept
      · obtain ⟨j, hj, rfl⟩ := List.mem_map.mp stated
        obtain rfl : j = i := shown
        exact .listed hj unlisted_nil
      · -- Only notices that follow the announcement of the listing are kept over it.
        cases under : l.pending with
        | none => simp [under] at kept
        | some events =>
          rw [under, Option.getD_some] at kept
          obtain ⟨before, rfl⟩ := h.pending events under
          exact .underWay kept shown unlisted_nil
    · rintro events ⟨⟩

theorem EffectiveLog.accounted_ofUpdates (updates : List Update) :
    (ofUpdates updates).Accounted updates := by
  induction updates using List.reverseRecOn with
  | nil => exact ⟨fun _ he => absurd he List.not_mem_nil, fun _ kept => nomatch kept⟩
  | append_singleton updates u ih =>
    rw [ofUpdates_concat]
    exact ih.apply u

/-! ## Backends of instances -/

/-- The port of a mapping that is reached from a side. -/
def PortMapping.reached (p : PortMapping) : Side → UInt16
  | .external => p.hostPort
  | .internal => p.containerPort

namespace Instance

variable {i : Instance} {ssh : UInt16} {side : Side} {id : SchedulerId} {b : Backend}

/-- The backend of an instance on a side, while it serves requests. -/
def backend (i : Instance) (ssh : UInt16) : Side → Option Backend
  | .external => i.externalBackend ssh
  | .internal => i.internalBackend ssh

/-- An instance serves requests by a backend on a side. -/
structure Serves (i : Instance) (ssh : UInt16) (side : Side) (b : Backend) : Prop where
  running : i.state = .running
  staying : i.evacuating = false
  backend : i.backend ssh side = some b
  /-- The backend is that of a port of the instance, which is not the one for remote shells. -/
  mapping : ∃ p ∈ i.ports, p.containerPort ≠ ssh ∧ b.port = p.reached side ∧
    b.containerPort = p.containerPort
  port : b.port ≠ 0

theorem of_isRoutable (h : i.isRoutable) : i.state = .running ∧ i.evacuating = false := by
  simpa [isRoutable] using h

theorem of_appPort {p : PortMapping} (h : i.appPort ssh = some p) :
    p ∈ i.ports ∧ p.containerPort ≠ ssh :=
  ⟨List.mem_of_find?_eq_some h, by simpa using List.find?_some h⟩

theorem serves_of_backend (h : i.backend ssh side = some b) : i.Serves ssh side b := by
  cases side with
  | external =>
    obtain ⟨routable, answers⟩ := Option.ite_none_right_eq_some.mp h
    obtain ⟨p, found, given⟩ := Option.bind_eq_some_iff.mp answers
    obtain ⟨port, made⟩ := Option.ite_none_left_eq_some.mp given
    obtain rfl := Option.some.inj made
    obtain ⟨member, other⟩ := of_appPort found
    obtain ⟨running, staying⟩ := of_isRoutable routable
    exact ⟨running, staying, h, ⟨p, member, other, rfl, rfl⟩, port⟩
  | internal =>
    obtain ⟨routable, answers⟩ := Option.ite_none_right_eq_some.mp h
    obtain ⟨address, -, addressed⟩ := Option.bind_eq_some_iff.mp answers
    obtain ⟨p, found, given⟩ := Option.bind_eq_some_iff.mp addressed
    obtain ⟨port, made⟩ := Option.ite_none_left_eq_some.mp given
    obtain rfl := Option.some.inj made
    obtain ⟨member, other⟩ := of_appPort found
    obtain ⟨running, staying⟩ := of_isRoutable routable
    exact ⟨running, staying, h, ⟨p, member, other, rfl, rfl⟩, port⟩

theorem Serves.containerPort_ne (h : i.Serves ssh side b) : b.containerPort ≠ ssh := by
  obtain ⟨p, -, other, -, container⟩ := h.mapping
  rwa [container]

theorem backend_of_gained (h : i.gained ssh side = some b) : i.backend ssh side = some b := by
  cases side with
  | external => exact h
  | internal =>
    obtain ⟨_, -, inside⟩ := Option.bind_eq_some_iff.mp h
    exact inside

theorem of_mem_additions (h : Change.add b ∈ i.additions ssh side id) :
    i.processId = id ∧ i.backend ssh side = some b := by
  unfold additions at h
  split_ifs at h with same
  · simp only [List.mem_map, Option.mem_toList, Change.add.injEq,
      exists_eq_right] at h
    exact ⟨same, backend_of_gained h⟩
  · exact absurd h List.not_mem_nil

theorem not_mem_removals : Change.add b ∉ i.removals ssh side id := by
  unfold removals
  split_ifs <;> simp

end Instance

/-- A backend that a notice adds is that of an instance it shows. -/
theorem InstanceEvent.exists_shows {ssh : UInt16} {side : Side} {id : SchedulerId} {b : Backend}
    {e : InstanceEvent} (h : Change.add b ∈ e.changes ssh side id) :
    ∃ i, e.Shows i ∧ i.processId = id ∧ i.backend ssh side = some b := by
  cases e with
  | created i => exact ⟨i, rfl, Instance.of_mem_additions h⟩
  | changed before after =>
    rcases List.mem_append.mp h with gone | come
    · exact absurd gone Instance.not_mem_removals
    · exact ⟨after, rfl, Instance.of_mem_additions come⟩
  | removed i => exact absurd h Instance.not_mem_removals

/-- A backend in a set of the log is that of an instance that the log tells of. -/
theorem EffectiveLog.exists_of_mem_sets {l : EffectiveLog} {ssh : UInt16} {side : Side}
    {id : SchedulerId} {b : Backend} (h : b ∈ (l.sets ssh side id).toList) :
    ∃ e ∈ l.log, ∃ i, e.Shows i ∧ i.processId = id ∧ i.backend ssh side = some b := by
  have first := (mem_sets_iff l ssh side id b).mp h
  have added : Change.add b ∈ BackendStore.changesAt ssh side id b.key l.log :=
    List.rtakeWhile_suffix _ _ |>.subset (List.mem_of_mem_head? first)
  obtain ⟨e, member, change⟩ := List.mem_flatMap.mp (List.mem_filter.mp added).1
  exact ⟨e, member, InstanceEvent.exists_shows change⟩

/-! ## Observed ids -/

namespace BackendStore

variable {s t u : BackendStore} {ssh : UInt16}

/-- Every id has a set on both sides, or on neither. -/
def Paired (s : BackendStore) : Prop := ∀ id, s.external.contains id = s.internal.contains id

/-- Another store keeps what this one has observed, and is paired if this one is. -/
structure Keeps (s t : BackendStore) : Prop where
  paired : s.Paired → t.Paired
  observed : ∀ id, s.external.contains id → t.external.contains id

theorem Keeps.refl (s : BackendStore) : s.Keeps s := ⟨id, fun _ => id⟩

theorem Keeps.trans (h : s.Keeps t) (h' : t.Keeps u) : s.Keeps u :=
  ⟨h'.paired ∘ h.paired, fun id => h'.observed id ∘ h.observed id⟩

theorem contains_insert (t : Table SchedulerId BackendSet) (id id' : SchedulerId)
    (set : BackendSet) : (t.insert id set).contains id' = (id' == id || t.contains id') := by
  by_cases h : id' = id <;> simp [Table.contains, Table.get?_insert, h]

theorem contains_withdraw (t : Table SchedulerId BackendSet) (id id' : SchedulerId)
    (b : Option Backend) : (withdraw t id b).contains id' = t.contains id' := by
  cases b with
  | none => rfl
  | some b =>
    cases h : t.get? id with
    | none => simp only [withdraw, h]
    | some set =>
      simp only [withdraw, h, contains_insert]
      by_cases same : id' = id <;> simp [same, Table.contains, h]

theorem contains_withIds (t : Table SchedulerId BackendSet) (ids : List SchedulerId)
    (id : SchedulerId) : (withIds t ids).contains id = (ids.contains id || t.contains id) := by
  induction ids generalizing t with
  | nil => rfl
  | cons i ids ih =>
    have first : (if t.contains i then t else t.insert i ∅).contains id =
        (id == i || t.contains id) := by
      by_cases same : id = i <;> split_ifs with known <;> simp_all [contains_insert]
    calc (withIds t (i :: ids)).contains id
        = (ids.contains id || (if t.contains i then t else t.insert i ∅).contains id) := ih _
      _ = ((i :: ids).contains id || t.contains id) := by
          rw [first, List.contains_cons]
          grind

theorem contains_keys (t : Table SchedulerId BackendSet) (id : SchedulerId) :
    t.keys.contains id = t.contains id := by
  rw [Bool.eq_iff_iff, List.contains_iff_mem, Table.mem_keys, Table.contains,
    Option.isSome_iff_exists]

theorem keeps_track (s : BackendStore) (i : Instance) : s.Keeps (s.track ssh i) := by
  unfold track
  cases i.externalBackend ssh with
  | none => exact .refl s
  | some b =>
    constructor
    · intro paired id
      simp only [contains_insert, paired id]
    · intro id known
      simp only [contains_insert, known, Bool.or_true]

theorem keeps_untrack (s : BackendStore) (i : Instance) : s.Keeps (s.untrack ssh i) := by
  constructor
  · intro paired id
    simp only [untrack, contains_withdraw, paired id]
  · intro id known
    simpa only [untrack, contains_withdraw] using known

theorem keeps_replay (s : BackendStore) (e : InstanceEvent) : s.Keeps (s.replay ssh e) := by
  cases e with
  | created i => exact keeps_track s i
  | changed before after => exact (keeps_untrack s before).trans (keeps_track _ after)
  | removed i => exact keeps_untrack s i

theorem keeps_replayAll (s : BackendStore) (log : List InstanceEvent) :
    s.Keeps (s.replayAll ssh log) := by
  induction log generalizing s with
  | nil => exact .refl s
  | cons e log ih => exact (keeps_replay s e).trans (ih _)

theorem paired_empty : empty.Paired := fun _ => rfl

theorem paired_ofListing (instances : List Instance) : (ofListing ssh instances).Paired := by
  rw [ofListing_eq_replayAll]
  exact (keeps_replayAll empty _).paired paired_empty

theorem Paired.keepIds (h : s.Paired) (ids : List SchedulerId) : (s.keepIds ids).Paired := by
  intro id
  simp only [BackendStore.keepIds, contains_withIds, h id]

theorem contains_keepIds (s t : BackendStore) (id : SchedulerId)
    (known : s.external.contains id) : (t.keepIds s.external.keys).external.contains id := by
  simp only [keepIds, contains_withIds, contains_keys, known, Bool.true_or]

end BackendStore

namespace Reconciler

theorem keeps_apply (r : Reconciler) (u : Update) : r.store.Keeps (r.apply u).store := by
  cases u with
  | event e => exact BackendStore.keeps_replay r.store e
  | listingStarted => exact .refl r.store
  | listing instances =>
    -- The sets are made anew from the listing, so nothing is needed of the ones before.
    let fresh := (BackendStore.ofListing r.sshPort instances).keepIds r.store.external.keys
    have replayed : fresh.Keeps (r.apply (.listing instances)).store :=
      BackendStore.keeps_replayAll fresh _
    constructor
    · intro _
      exact replayed.paired ((BackendStore.paired_ofListing instances).keepIds _)
    · intro id known
      exact replayed.observed id (BackendStore.contains_keepIds r.store _ id known)

theorem keeps_applyAll (r : Reconciler) (updates : List Update) :
    r.store.Keeps (r.applyAll updates).store := by
  induction updates generalizing r with
  | nil => exact .refl r.store
  | cons u updates ih => exact (keeps_apply r u).trans (ih (r.apply u))

/-- After any updates the same ids have sets on both sides, and they keep them whatever follows.
No set holds an address with a port twice. Every backend in the set of an id on a side is that of
a running instance of the id that the updates vouch for, so it has a port, and the port of its
container is not the one for remote shells. -/
theorem sourced_applyAll (ssh : UInt16) (updates : List Update) :
    let r := (init ssh).applyAll updates
    r.store.Paired ∧
    (∀ more id, r.isTracked id → (r.applyAll more).isTracked id) ∧
    ∀ side id, (r.store.sets side id).Distinct ∧
      ∀ b ∈ (r.store.sets side id).toList,
        (∃ i, Vouched i updates ∧ i.processId = id ∧ i.Serves ssh side b) ∧
        b.port ≠ 0 ∧ b.containerPort ≠ ssh := by
  intro r
  refine ⟨(keeps_applyAll (init ssh) updates).paired BackendStore.paired_empty,
    fun more => (keeps_applyAll r more).observed, fun side id => ?_⟩
  rw [sets_applyAll]
  refine ⟨EffectiveLog.distinct_sets _ ssh side id, fun b member => ?_⟩
  obtain ⟨e, logged, i, shown, process, backend⟩ := EffectiveLog.exists_of_mem_sets member
  have vouched := (EffectiveLog.accounted_ofUpdates updates).log e logged i shown
  have serves := Instance.serves_of_backend backend
  exact ⟨⟨i, vouched, process, serves⟩, serves.port, serves.containerPort_ne⟩

end Reconciler

end MeshControl
