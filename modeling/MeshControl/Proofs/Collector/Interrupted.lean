import Mathlib
import MeshControl.Proofs.Api.Admission
import MeshControl.Proofs.Mapping.Shares
import MeshControl.Proofs.Reading

/-!
# Collecting while the desired state changes

Whoever collects the records, or lists the mappings with their shares, looks at one directory after
another and holds none of them in between. The mappings are listed at the first look, and the sum of
weights that each is a part of is looked up later. By then the listed weight can be gone from it.
The share is at most a hundred percent if the mapping was left alone, or if a mapping that is not
lighter took its place, but not in general.

## Main definitions

* `ControlPlane.readRecords`, `ControlPlane.readShares` — the looks of both readers.
* `ControlPlane.Act`, `ControlPlane.moments` — what happens between looks, and what they see.
* `ControlPlane.ReadLate` — a share that was looked up after its mapping was listed.
* `ControlPlane.shares_interrupted` — all shares are such, whatever happens.
-/

namespace MeshControl.ControlPlane

open Reading (ask)

/-! ## The looks -/

/-- The records of a mapping that was listed before. -/
def readRecordsOf (m : RouteMapping) : Reading ControlPlane (List RouteRecord) := do
  match ← ask (·.desired.routes.get? m.routeId) with
  | none => return []
  | some r =>
    match ← ask (·.desired.associations.get? m.processId) with
    | none => return []
    | some ids =>
      let share ← ask (·.desired.mappings.share m)
      ids.toList.mapM fun id => ask fun c =>
        { c.desired.recordOf c.backends.live m r id with weight := share }

/-- The records, collected by one look after another. -/
def readRecords : Reading ControlPlane (List RouteRecord) := do
  let mappings ← ask (·.desired.mappings.list)
  let records ← mappings.mapM readRecordsOf
  return RouteRecord.sort records.flatten

/-- The mappings with their shares, looked up one after another. -/
def readShares : Reading ControlPlane (List (RouteMapping × UInt32)) := do
  let mappings ← ask (·.desired.mappings.list)
  mappings.mapM fun m => do
    let share ← ask (·.desired.mappings.share m)
    return (m, share)

variable {c : ControlPlane}

theorem now_readRecordsOf (m : RouteMapping) :
    (readRecordsOf m).now c = c.desired.recordsOf c.backends.live m := by
  simp only [readRecordsOf, DesiredState.recordsOf, Reading.now_bind, Reading.now_ask]
  cases c.desired.routes.get? m.routeId with
  | none => rfl
  | some r =>
    simp only [Reading.now_bind, Reading.now_ask]
    cases c.desired.associations.get? m.processId with
    | none => rfl
    | some ids =>
      simp only [Reading.now_bind, Reading.now_ask, Reading.now_mapM]
      rfl

/-- If nothing changes in the meantime, the records are those of the state. -/
theorem run_readRecords_const (n : Nat) : (readRecords.run (fun _ => c) n).1 = c.records := by
  simp only [Reading.run_const, readRecords, Reading.now_bind, Reading.now_ask, Reading.now_mapM,
    Reading.pure_eq, Reading.now_done, now_readRecordsOf]
  rw [records, DesiredState.collect, List.flatMap_def]

/-- If nothing changes in the meantime, the shares are those that the service answers with. -/
theorem read_listMappings (node : NodeId) (n : Nat) : Api.read node c .listMappings =
    .ok (.data (.array ((readShares.run (fun _ => c) n).1.map fun e =>
      .object (e.1.members ++ [("calculated_weight", .ofNat e.2.toNat)])))) := by
  simp only [Reading.run_const, readShares, Reading.now_bind, Reading.now_ask, Reading.now_mapM,
    Reading.pure_eq, Reading.now_done, List.map_map]
  rfl

theorem mem_run_readRecords {states : Nat → ControlPlane} {n : Nat} {record : RouteRecord} :
    record ∈ (readRecords.run states n).1 ↔ record ∈
      (((states n).desired.mappings.list.mapM readRecordsOf).run states (n + 1)).1.flatten := by
  simp only [readRecords, Reading.run_bind, Reading.run_ask, Reading.pure_eq, Reading.run_done,
    RouteRecord.sort, List.mem_mergeSort]

/-- A record of a mapping has the share that was looked up after the route and the association. -/
theorem exists_of_mem_run_readRecordsOf {states : Nat → ControlPlane} {m : RouteMapping} {n : Nat}
    {record : RouteRecord} (h : record ∈ ((readRecordsOf m).run states n).1) :
    record.processId = m.processId ∧
    record.weight = (states (n + 2)).desired.mappings.share m ∧
    ∃ r, (states n).desired.routes.get? m.routeId = some r ∧
      record.hostname = r.hostname ∧ record.path = r.pathPrefix := by
  simp only [readRecordsOf, Reading.run_bind, Reading.run_ask] at h
  cases route : (states n).desired.routes.get? m.routeId with
  | none => simp [route] at h
  | some r =>
    simp only [route, Reading.run_bind, Reading.run_ask] at h
    cases association : (states (n + 1)).desired.associations.get? m.processId with
    | none => simp [association] at h
    | some ids =>
      simp only [association, Reading.run_bind, Reading.run_ask] at h
      obtain ⟨id, -, k, -, rfl⟩ := Reading.exists_of_mem_run_mapM h
      exact ⟨rfl, rfl, r, rfl, rfl, rfl⟩

/-! ## What happens between looks -/

/-- An edit of one directory, or an update from the scheduler. -/
inductive Act where
  | route (e : Edit RouteId Route)
  | mapping (e : Edit MappingKey RouteMapping)
  | association (e : Edit ProcessId Association)
  | update (u : Update)

namespace Act

/-- What is put is in its stored form. -/
def Admitted : Act → Prop
  | route e => ∀ r ∈ e.values, r.Admitted
  | mapping e => ∀ m ∈ e.values, m.Admitted
  | association e => ∀ a ∈ e.values, a.Admitted
  | update _ => True

/-- An act decides which mapping a key has. -/
def Touches (key : MappingKey) : Act → Prop
  | mapping e => ∃ w ∈ e.writes, w.Touches RouteMapping.key key
  | route _ | association _ | update _ => False

end Act

def act (c : ControlPlane) : Act → ControlPlane
  | .route e => { c with desired := c.desired.edit ⟨[e], [], []⟩ }
  | .mapping e => { c with desired := c.desired.edit ⟨[], [e], []⟩ }
  | .association e => { c with desired := c.desired.edit ⟨[], [], [e]⟩ }
  | .update u => c.update u

/-- What every look sees, if before each of them a row of acts takes place. -/
def moments (sshPort : UInt16) (acts : Nat → List Act) : Nat → ControlPlane
  | 0 => (acts 0).foldl act (init sshPort)
  | n + 1 => (acts (n + 1)).foldl act (moments sshPort acts n)

/-- Edits of one kind, each an act of its own. -/
theorem foldl_act_map {α : Type} {f : α → Act} (edits : List α → DesiredState.Edits)
    (start : edits [] = ⟨[], [], []⟩)
    (step : ∀ (c : ControlPlane) x l, { c with desired := c.desired.edit (edits (x :: l)) } =
      { c.act (f x) with desired := (c.act (f x)).desired.edit (edits l) })
    (l : List α) (c : ControlPlane) :
    (l.map f).foldl act c = { c with desired := c.desired.edit (edits l) } := by
  induction l generalizing c with
  | nil =>
    rw [start]
    rfl
  | cons x l ih => rw [List.map_cons, List.foldl_cons, ih, step]

/-- Whatever is asked of the service comes down to acts, between which others can come. -/
theorem exists_acts_respond (node : NodeId) (c : ControlPlane) (request : Api.Request) :
    ∃ acts : List Act, (∀ a ∈ acts, a.Admitted) ∧
      (Api.respond node c request).1 = acts.foldl act c := by
  obtain ⟨e, admitted, effect⟩ := Api.exists_edits_respond node c request
  refine ⟨e.routes.map .route ++ (e.mappings.map .mapping ++ e.associations.map .association),
    ?_, ?_⟩
  · simp only [List.forall_mem_append, List.forall_mem_map]
    exact ⟨admitted.routes, admitted.mappings, admitted.associations⟩
  · rw [effect, List.foldl_append, List.foldl_append]
    rw [foldl_act_map (⟨·, [], []⟩) rfl fun _ _ _ => rfl]
    rw [foldl_act_map (⟨[], ·, []⟩) rfl fun _ _ _ => rfl]
    rw [foldl_act_map (⟨[], [], ·⟩) rfl fun _ _ _ => rfl]
    rfl

/-! ## Kept by every act -/

theorem admitted_act (h : c.desired.Admitted) {a : Act} (ha : a.Admitted) :
    (c.act a).desired.Admitted := by
  cases a with
  | route e => exact h.edit (DesiredState.Edits.admitted_route ha)
  | mapping e => exact h.edit (DesiredState.Edits.admitted_mapping ha)
  | association e => exact h.edit (DesiredState.Edits.admitted_association ha)
  | update u => exact h

theorem get?_act {key : MappingKey} {a : Act} (untouched : ¬ a.Touches key) :
    (c.act a).desired.mappings.get? key = c.desired.mappings.get? key := by
  cases a with
  | mapping e =>
    exact RouteMapping.Directory.obeys_store.get?_edit _ fun w hw touches =>
      untouched ⟨w, hw, touches⟩
  | route e => rfl
  | association e => rfl
  | update u => rfl

/-- What every act of a row keeps, the row keeps. -/
theorem foldl_act_induction {P : ControlPlane → Prop} {acts : List Act}
    (step : ∀ c, ∀ a ∈ acts, P c → P (c.act a)) (h : P c) : P (acts.foldl act c) := by
  induction acts generalizing c with
  | nil => exact h
  | cons a acts ih =>
    exact ih (fun c b hb => step c b (List.mem_cons_of_mem a hb))
      (step c a List.mem_cons_self h)

variable {sshPort : UInt16} {acts : Nat → List Act}

theorem admitted_moments (admitted : ∀ n, ∀ a ∈ acts n, a.Admitted) (n : Nat) :
    (moments sshPort acts n).desired.Admitted := by
  have row : ∀ n c, c.desired.Admitted → ((acts n).foldl act c).desired.Admitted := fun n _ =>
    foldl_act_induction (P := (·.desired.Admitted)) fun _ a ha h => admitted_act h (admitted n a ha)
  induction n with
  | zero => exact row 0 _ DesiredState.admitted_empty
  | succ n ih => exact row (n + 1) _ ih

/-- A mapping that is left alone after the first look is still there at a later one. -/
theorem get?_moments {key : MappingKey} {n : Nat}
    (untouched : ∀ k, 0 < k → k ≤ n → ∀ a ∈ acts k, ¬ a.Touches key) :
    (moments sshPort acts n).desired.mappings.get? key =
      (moments sshPort acts 0).desired.mappings.get? key := by
  induction n with
  | zero => rfl
  | succ n ih =>
    have before := ih fun k pos le => untouched k pos (Nat.le_succ_of_le le)
    rw [← before, moments]
    refine foldl_act_induction (P := fun c => c.desired.mappings.get? key = _) ?_ rfl
    intro c a ha same
    rw [get?_act (untouched (n + 1) n.succ_pos le_rfl a ha), same]

/-! ## Shares looked up late -/

/-- A share that was looked up at a moment, for a mapping that was listed at the first look. It is
one of the sum at that moment, and of the weight at the first look. -/
structure ReadLate (sshPort : UInt16) (acts : Nat → List Act) (m : RouteMapping) (n : Nat)
    (share : UInt32) : Prop where
  listed : m ∈ (moments sshPort acts 0).desired.mappings.list
  later : 0 < n
  share_eq : share = (moments sshPort acts n).desired.mappings.share m
  le_hundred_iff : share ≤ 100 ↔
    (moments sshPort acts n).desired.mappings.denominator m.routeId = 0 ∨
      m.weight.toNat ≤ (moments sshPort acts n).desired.mappings.denominator m.routeId
  /-- A mapping that took the place of the listed one is enough if it is not lighter. -/
  of_replaced : ∀ m', (moments sshPort acts n).desired.mappings.get? m.key = some m' →
    m.weight ≤ m'.weight → share ≤ 100
  of_untouched : (∀ k, 0 < k → k ≤ n → ∀ a ∈ acts k, ¬ a.Touches m.key) → share ≤ 100
  le_most : share ≤ 12800

theorem readLate (admitted : ∀ n, ∀ a ∈ acts n, a.Admitted) {m : RouteMapping} {n : Nat}
    (listed : m ∈ (moments sshPort acts 0).desired.mappings.list) (later : 0 < n) :
    ReadLate sshPort acts m n ((moments sshPort acts n).desired.mappings.share m) := by
  have start : (moments sshPort acts 0).desired.Admitted := admitted_moments admitted 0
  have balanced : (moments sshPort acts n).desired.mappings.Balanced :=
    (admitted_moments admitted n).balanced
  have light : m.weight ≤ 128 := (start.mapping listed).weight.2
  have stored : (moments sshPort acts 0).desired.mappings.get? m.key = some m := by
    obtain ⟨k, stored⟩ := RouteMapping.Directory.mem_list.mp listed
    rwa [start.balanced.keyed k m stored]
  have le_hundred_iff := percentage_le_hundred_iff light
    ((moments sshPort acts n).desired.mappings.denominator m.routeId)
  have of_replaced : ∀ m', (moments sshPort acts n).desired.mappings.get? m.key = some m' →
      m.weight ≤ m'.weight → (moments sshPort acts n).desired.mappings.share m ≤ 100 := by
    intro m' held heavier
    have route : m'.routeId = m.routeId := congrArg MappingKey.routeId (balanced.keyed _ _ held)
    have part := balanced.weight_le_denominator held
    rw [route] at part
    exact le_hundred_iff.mpr (.inr ((UInt32.le_iff_toNat_le.mp heavier).trans part))
  refine ⟨listed, later, rfl, le_hundred_iff, of_replaced, fun untouched => ?_,
    percentage_le light _⟩
  exact of_replaced m ((get?_moments untouched).trans stored) (UInt32.le_refl _)

/-! ## Any acts -/

/-- Whatever admitted acts take place before the first look and between any two looks, the weight of
every record, and every share beside a mapping, is the share of a weight that was listed at the
first look in the sum of its route at a later look. It is a hundred or less exactly if this sum is
zero or not smaller than the weight, so if the mapping was left alone in the meantime, or gave way
to one that is not lighter. In any case it is at most 12800. -/
theorem shares_interrupted (sshPort : UInt16) (acts : Nat → List Act)
    (admitted : ∀ n, ∀ a ∈ acts n, a.Admitted) :
    let states := moments sshPort acts
    (∀ record ∈ (readRecords.run states 0).1, ∃ m n, ReadLate sshPort acts m n record.weight ∧
      record.processId = m.processId ∧
      ∃ k, 0 < k ∧ k < n ∧ ∃ r, (states k).desired.routes.get? m.routeId = some r ∧
        record.hostname = r.hostname ∧ record.path = r.pathPrefix) ∧
    ∀ e ∈ (readShares.run states 0).1, ∃ n, ReadLate sshPort acts e.1 n e.2 := by
  intro states
  constructor
  · intro record h
    obtain ⟨l, hl, member⟩ := List.mem_flatten.mp (mem_run_readRecords.mp h)
    obtain ⟨m, listed, k, later, rfl⟩ := Reading.exists_of_mem_run_mapM hl
    obtain ⟨process, weight, route⟩ := exists_of_mem_run_readRecordsOf member
    refine ⟨m, k + 2, ?_, process, k, later, by omega, route⟩
    rw [weight]
    exact readLate admitted listed (Nat.succ_pos _)
  · intro e h
    simp only [readShares, Reading.run_bind, Reading.run_ask] at h
    obtain ⟨m, listed, k, later, rfl⟩ := Reading.exists_of_mem_run_mapM h
    exact ⟨k, readLate admitted listed later⟩

/-- A route of one process, the weight of which is changed after the first look. -/
def reweighted (listed later : UInt32) : Nat → List Act
  | 0 => [.route (.put ⟨"r-1", "shop", none, false, none⟩),
      .association (.put ⟨"p-1", .ofList ["s-1"]⟩), .mapping (.put ⟨"r-1", "p-1", listed⟩)]
  | 1 => [.mapping (.put ⟨"r-1", "p-1", later⟩)]
  | _ => []

theorem admitted_reweighted {listed later : UInt32} (hl : 1 ≤ listed ∧ listed ≤ 128)
    (hl' : 1 ≤ later ∧ later ≤ 128) : ∀ n, ∀ a ∈ reweighted listed later n, a.Admitted := by
  have route : (⟨"r-1", "shop", none, false, none⟩ : Route).Admitted :=
    ⟨by decide, by decide, by simp [Text.IsLower], nofun, by decide⟩
  have association : (⟨"p-1", .ofList ["s-1"]⟩ : Association).Admitted :=
    Association.validate_eq_ok_iff.mp (by decide)
  have mapping : ∀ w, 1 ≤ w ∧ w ≤ 128 → (Act.mapping (.put ⟨"r-1", "p-1", w⟩)).Admitted :=
    fun w hw => List.forall_mem_singleton.mpr ⟨by simp, by simp, hw⟩
  rintro (_ | _ | n)
  · simp only [reweighted, List.forall_mem_cons]
    exact ⟨List.forall_mem_singleton.mpr route, List.forall_mem_singleton.mpr association,
      mapping listed hl, List.forall_mem_nil _⟩
  · exact List.forall_mem_singleton.mpr (mapping later hl')
  · exact List.forall_mem_nil _

/-- A heavier mapping takes the place of the listed one, whose share is a part of the new sum. -/
theorem shares_interrupted_heavier :
    (∀ n, ∀ a ∈ reweighted 40 50 n, a.Admitted) ∧
      ∃ record ∈ (readRecords.run (moments 2222 (reweighted 40 50)) 0).1, record.weight = 80 ∧
        ∃ m n, ReadLate 2222 (reweighted 40 50) m n record.weight := by
  have admitted : ∀ n, ∀ a ∈ reweighted 40 50 n, a.Admitted :=
    admitted_reweighted (by decide) (by decide)
  refine ⟨admitted, ?_⟩
  have emitted : ∃ record ∈ (readRecords.run (moments 2222 (reweighted 40 50)) 0).1,
      record.weight = 80 := by
    simp only [mem_run_readRecords]
    decide
  obtain ⟨record, member, weight⟩ := emitted
  obtain ⟨m, n, late, -⟩ := (shares_interrupted 2222 _ admitted).1 record member
  exact ⟨record, member, weight, m, n, late⟩

/-- The lightest mapping takes the place of the heaviest, whose share is as large as a share can
be. -/
theorem exists_share_above_hundred :
    (∀ n, ∀ a ∈ reweighted 128 1 n, a.Admitted) ∧
      (∃ record ∈ (readRecords.run (moments 2222 (reweighted 128 1)) 0).1,
        record.weight = 12800) ∧
      ∃ e ∈ (readShares.run (moments 2222 (reweighted 128 1)) 0).1, e.2 = 12800 := by
  refine ⟨admitted_reweighted (by decide) (by decide), ?_, by decide⟩
  simp only [mem_run_readRecords]
  decide

end MeshControl.ControlPlane
