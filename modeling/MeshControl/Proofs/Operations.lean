import Mathlib
import MeshControl.Proofs.Api.Admission

/-!
# Callers that work on different keys

Callers put in and take out single routes, mappings and associations. Those that work on different
keys still meet in the sums of the weights and in the index of host names. But sums and index are
made of what is stored, whatever was stored before, so it does not matter in which order such
callers come.

## Main definitions

* `DesiredState.Op`, `DesiredState.operateAll` — operations on single keys.
* `DesiredState.Coherent` — what is kept beside the stored values is made of them.
* `DesiredState.Coherent.eq_of_get?` — such a state is known by its look-ups.
* `DesiredState.operateAll_eq_of_filter_key_eq` — only the order on each key matters.
-/

namespace MeshControl.DesiredState

/-- An operation on one key of one directory. -/
inductive Op where
  | upsertRoute (r : Route)
  | deleteRoute (id : RouteId)
  | map (m : RouteMapping)
  | unmap (k : MappingKey)
  | upsertAssociation (a : Association)
  | deleteAssociation (id : ProcessId)
  deriving DecidableEq

/-- A key with the directory that it belongs to. -/
inductive Op.Key where
  | route (id : RouteId)
  | mapping (k : MappingKey)
  | association (id : ProcessId)
  deriving DecidableEq

namespace Op

def key : Op → Key
  | upsertRoute r => .route r.id
  | deleteRoute id => .route id
  | map m => .mapping m.key
  | unmap k => .mapping k
  | upsertAssociation a => .association a.processId
  | deleteAssociation id => .association id

/-! ## The writes of an operation -/

def onRoutes? : Op → Option (Write RouteId Route)
  | upsertRoute r => some (.put r)
  | deleteRoute id => some (.drop id)
  | _ => none

def onMappings? : Op → Option (Write MappingKey RouteMapping)
  | map m => some (.put m)
  | unmap k => some (.drop k)
  | _ => none

def onAssociations? : Op → Option (Write ProcessId Association)
  | upsertAssociation a => some (.put a)
  | deleteAssociation id => some (.drop id)
  | _ => none

section Part

variable {κ α : Type} [DecidableEq κ] {keyOf : α → κ} {part? : Op → Option (Write κ α)}
  {tag : κ → Key}

/-- The writes that touch a key of a directory are those of the operations on this key. -/
theorem filter_filterMap (touches : ∀ o k, o.key = tag k ↔ ∃ w ∈ part? o, w.Touches keyOf k)
    (ops : List Op) (k : κ) : (ops.filterMap part?).filter (·.Touches keyOf k) =
      (ops.filter (·.key = tag k)).filterMap part? := by
  induction ops with
  | nil => rfl
  | cons o ops ih =>
    have here := touches o k
    cases part : part? o with
    | none =>
      rw [part] at here
      simp_all
    | some w =>
      rw [part] at here
      by_cases same : o.key = tag k <;> simp_all

/-- What a directory holds under a key depends on the operations on this key. -/
theorem get?_foldl_congr {β σ : Type} {S : Store κ α σ} {form : α → β} {get? : σ → κ → Option β}
    (obeys : S.Obeys keyOf form get?)
    (touches : ∀ o k, o.key = tag k ↔ ∃ w ∈ part? o, w.Touches keyOf k) {ops ops' : List Op}
    (same : ∀ k, ops.filter (·.key = k) = ops'.filter (·.key = k)) (s : σ) (k : κ) :
    get? ((ops.filterMap part?).foldl S.write s) k =
      get? ((ops'.filterMap part?).foldl S.write s) k := by
  rw [obeys.get?_foldl, obeys.get?_foldl, filter_filterMap touches, filter_filterMap touches, same]

end Part

theorem key_eq_route_iff (o : Op) (id : RouteId) :
    o.key = .route id ↔ ∃ w ∈ o.onRoutes?, w.Touches Route.id id := by
  cases o <;> simp [key, onRoutes?, Write.Touches]

theorem key_eq_mapping_iff (o : Op) (k : MappingKey) :
    o.key = .mapping k ↔ ∃ w ∈ o.onMappings?, w.Touches RouteMapping.key k := by
  cases o <;> simp [key, onMappings?, Write.Touches]

theorem key_eq_association_iff (o : Op) (id : ProcessId) :
    o.key = .association id ↔ ∃ w ∈ o.onAssociations?, w.Touches Association.processId id := by
  cases o <;> simp [key, onAssociations?, Write.Touches]

end Op

/-! ## The effect of operations -/

def operate (d : DesiredState) : Op → DesiredState
  | .upsertRoute r => { d with routes := d.routes.upsert r }
  | .deleteRoute id => { d with routes := d.routes.delete id }
  | .map m => { d with mappings := d.mappings.map m }
  | .unmap k => { d with mappings := d.mappings.unmap k }
  | .upsertAssociation a => { d with associations := d.associations.upsert a }
  | .deleteAssociation id => { d with associations := d.associations.delete id }

/-- The effect of operations in a row. -/
def operateAll (d : DesiredState) (ops : List Op) : DesiredState := ops.foldl operate d

theorem routes_operateAll (d : DesiredState) (ops : List Op) : (d.operateAll ops).routes =
    (ops.filterMap Op.onRoutes?).foldl Route.Directory.store.write d.routes := by
  induction ops generalizing d with
  | nil => rfl
  | cons o ops ih => cases o <;> exact ih _

theorem mappings_operateAll (d : DesiredState) (ops : List Op) : (d.operateAll ops).mappings =
    (ops.filterMap Op.onMappings?).foldl RouteMapping.Directory.store.write d.mappings := by
  induction ops generalizing d with
  | nil => rfl
  | cons o ops ih => cases o <;> exact ih _

theorem associations_operateAll (d : DesiredState) (ops : List Op) :
    (d.operateAll ops).associations =
      (ops.filterMap Op.onAssociations?).foldl Association.Directory.store.write
        d.associations := by
  induction ops generalizing d with
  | nil => rfl
  | cons o ops ih => cases o <;> exact ih _

/-! ## Coherent states -/

/-- The index lists the stored routes, and the sums are those of the stored mappings. -/
structure Coherent (d : DesiredState) : Prop where
  indexed : d.routes.Indexed
  balanced : d.mappings.Balanced

theorem coherent_edit (e : Edits) : (empty.edit e).Coherent :=
  ⟨Route.Directory.indexed_run e.routes, RouteMapping.Directory.balanced_run e.mappings⟩

theorem Admitted.coherent {d : DesiredState} (h : d.Admitted) : d.Coherent :=
  ⟨h.indexed, h.balanced⟩

namespace Coherent

variable {d d' : DesiredState}

/-- Coherent states with the same stored values are equal. -/
theorem eq_of_get? (h : d.Coherent) (h' : d'.Coherent)
    (routes : ∀ id, d.routes.get? id = d'.routes.get? id)
    (mappings : ∀ k, d.mappings.get? k = d'.mappings.get? k)
    (associations : ∀ id, d.associations.get? id = d'.associations.get? id) : d = d' := by
  have routes' : d.routes = d'.routes := h.indexed.eq_of_get? h'.indexed routes
  have mappings' : d.mappings = d'.mappings := h.balanced.eq_of_get? h'.balanced mappings
  have associations' : d.associations = d'.associations :=
    congrArg Association.Directory.mk (Table.eq_of_get? associations)
  cases d
  cases d'
  simp_all

theorem operate (h : d.Coherent) (o : Op) : (d.operate o).Coherent := by
  cases o with
  | upsertRoute r => exact ⟨h.indexed.upsert r, h.balanced⟩
  | deleteRoute id => exact ⟨h.indexed.delete id, h.balanced⟩
  | map m => exact ⟨h.indexed, h.balanced.map m⟩
  | unmap k => exact ⟨h.indexed, h.balanced.unmap k⟩
  | upsertAssociation a => exact ⟨h.indexed, h.balanced⟩
  | deleteAssociation id => exact ⟨h.indexed, h.balanced⟩

theorem operateAll (h : d.Coherent) (ops : List Op) : (d.operateAll ops).Coherent := by
  induction ops generalizing d with
  | nil => exact h
  | cons o ops ih => exact ih (h.operate o)

end Coherent

/-! ## Operations in another order -/

/-- From any state that edits bring about, operations lead to the same state as the same operations
in an order that differs from theirs only where the keys differ. So every question is answered
alike, and the same records are collected for the same backends. -/
theorem operateAll_eq_of_filter_key_eq (e : Edits) {ops ops' : List Op}
    (same : ∀ k, ops.filter (·.key = k) = ops'.filter (·.key = k)) :
    (empty.edit e).operateAll ops = (empty.edit e).operateAll ops' := by
  have start := coherent_edit e
  refine (start.operateAll ops).eq_of_get? (start.operateAll ops') (fun id => ?_) (fun k => ?_)
    fun id => ?_
  · rw [routes_operateAll, routes_operateAll]
    exact Op.get?_foldl_congr Route.Directory.obeys_store Op.key_eq_route_iff same _ id
  · rw [mappings_operateAll, mappings_operateAll]
    exact Op.get?_foldl_congr RouteMapping.Directory.obeys_store Op.key_eq_mapping_iff same _ k
  · rw [associations_operateAll, associations_operateAll]
    exact Op.get?_foldl_congr Association.Directory.obeys_store Op.key_eq_association_iff same _ id

/-- A route leaves a host name and comes back to it while another caller takes away the other route
of the host name, and both change the weights of one route. -/
theorem operateAll_two_callers :
    let e : Edits :=
      ⟨[.replace [⟨"r-1", "Shop.Example", none, false, some "10.1.1.1"⟩,
          ⟨"r-2", "shop.example", some "/db", false, some "10.2.2.2"⟩]],
        [.put ⟨"r-1", "p-1", 40⟩, .put ⟨"r-1", "p-2", 60⟩], []⟩
    let moved : Op := .upsertRoute ⟨"r-1", "db.example", none, false, none⟩
    let back : Op := .upsertRoute ⟨"r-1", "shop.example", none, false, none⟩
    let lighter : Op := .map ⟨"r-1", "p-1", 10⟩
    let gone : Op := .deleteRoute "r-2"
    let dropped : Op := .unmap ⟨"r-1", "p-2"⟩
    (∀ k, [moved, back, lighter, gone, dropped].filter (·.key = k) =
        [gone, dropped, moved, lighter, back].filter (·.key = k)) ∧
      (empty.edit e).operateAll [moved, back, lighter, gone, dropped] =
        (empty.edit e).operateAll [gone, dropped, moved, lighter, back] := by
  intro e moved back lighter gone dropped
  have same : ∀ k, [moved, back, lighter, gone, dropped].filter (·.key = k) =
      [gone, dropped, moved, lighter, back].filter (·.key = k) := by
    intro k
    simp only [List.filter_cons, List.filter_nil, moved, back, lighter, gone, dropped, Op.key,
      RouteMapping.key]
    grind
  exact ⟨same, operateAll_eq_of_filter_key_eq e same⟩

end MeshControl.DesiredState
