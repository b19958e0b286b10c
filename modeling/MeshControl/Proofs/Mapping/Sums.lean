import Mathlib
import MeshControl.Mapping.Directory
import MeshControl.Proofs.Edits
import MeshControl.Proofs.Table

/-!
# The sums of weights

A directory of mappings keeps the sums of the weights by taking out and adding single weights. The
sums are nevertheless those of the mappings that are stored, whatever was edited before: nothing is
counted twice, no sum outlives the last mapping of its route, and there is always enough in a sum
for what is taken out of it.

## Main definitions

* `RouteMapping.Directory.store` — how the directory is edited.
* `RouteMapping.Directory.onRoute` — the stored mappings of a route.
* `RouteMapping.Directory.Balanced` — the sums are those of the stored mappings.
* `RouteMapping.Directory.Exact` — a write stays within the bounds of the arithmetic.
* `RouteMapping.Directory.run_exact` — so it is after any edits, and with every write of them.
-/

namespace MeshControl.RouteMapping.Directory

def store : Store MappingKey RouteMapping Directory where
  empty := empty
  put := map
  drop := unmap
  replace := sync
  replace_eq _ _ := rfl

theorem obeys_store : store.Obeys key id get? where
  put := get?_map
  drop := get?_unmap
  empty _ := rfl

/-- The stored mappings of a route. -/
def onRoute (d : Directory) (route : RouteId) : List RouteMapping :=
  d.list.filter (·.routeId = route)

def totalWeight (l : List RouteMapping) : Nat := (l.map (·.weight.toNat)).sum

/-- Every mapping is stored under its key, and a route has a sum, that of the weights of its
mappings, if it has a mapping. -/
structure Balanced (d : Directory) : Prop where
  keyed : ∀ k m, d.get? k = some m → m.key = k
  sums : ∀ route, d.sums.get? route =
    if d.onRoute route = [] then none else some (totalWeight (d.onRoute route))

/-- What is taken out of a sum was in it. -/
def Covers (d : Directory) (k : MappingKey) : Prop :=
  ∀ m, d.get? k = some m → ∃ sum, d.sums.get? m.routeId = some sum ∧ m.weight.toNat ≤ sum

/-- A write takes nothing out of a sum that was not in it, and leaves a sum of 64 bits. -/
def Exact (d : Directory) : Write MappingKey RouteMapping → Prop
  | .put m => d.Covers m.key ∧
    (d.unmap m.key).denominator m.routeId + m.weight.toNat < 2 ^ 64
  | .drop k => d.Covers k
  | .clear => True

/-! ## Stored mappings -/

theorem mem_list {d : Directory} {m : RouteMapping} : m ∈ d.list ↔ ∃ k, d.get? k = some m :=
  Table.mem_values

theorem mem_onRoute {d : Directory} {m : RouteMapping} {route : RouteId} :
    m ∈ d.onRoute route ↔ (∃ k, d.get? k = some m) ∧ m.routeId = route := by
  rw [onRoute, List.mem_filter, mem_list, decide_eq_true_eq]

theorem onRoute_ne_nil_iff {d : Directory} {route : RouteId} :
    d.onRoute route ≠ [] ↔ ∃ k m, d.get? k = some m ∧ m.routeId = route := by
  constructor
  · intro served
    obtain ⟨m, member⟩ := List.exists_mem_of_ne_nil _ served
    obtain ⟨⟨k, stored⟩, same⟩ := mem_onRoute.mp member
    exact ⟨k, m, stored, same⟩
  · rintro ⟨k, m, stored, same⟩
    exact List.ne_nil_of_mem (mem_onRoute.mpr ⟨⟨k, stored⟩, same⟩)

theorem byKey_unmap (d : Directory) (k : MappingKey) :
    (d.unmap k).byKey = d.byKey.erase k := by
  unfold unmap
  split
  · rw [byKey_subtract]
  · rename_i vacant
    rw [Table.erase_of_get?_eq_none vacant]

theorem perm_list_unmap {d : Directory} {k : MappingKey} {m : RouteMapping}
    (h : d.get? k = some m) : d.list.Perm (m :: (d.unmap k).list) := by
  rw [list, list, byKey_unmap]
  exact Table.perm_values_erase h

theorem perm_list_map (d : Directory) (m : RouteMapping) :
    (d.map m).list.Perm (m :: (d.unmap m.key).list) := by
  have stored : (d.map m).byKey.get? m.key = some m := Table.get?_insert_self _ _ _
  have vacant : (d.unmap m.key).byKey.get? m.key = none := by
    rw [byKey_unmap, Table.get?_erase, if_pos (by simp)]
  have rest : (d.map m).byKey.erase m.key = (d.unmap m.key).byKey := by
    rw [map, Table.erase_insert, Table.erase_of_get?_eq_none vacant]
  rw [list, list, ← rest]
  exact Table.perm_values_erase stored

/-- A mapping counts among those of its route, and among those of no other. -/
theorem perm_onRoute {d d' : Directory} {m : RouteMapping}
    (h : d.list.Perm (m :: d'.list)) (route : RouteId) :
    (d.onRoute route).Perm
      (if m.routeId = route then m :: d'.onRoute route else d'.onRoute route) := by
  have filtered := h.filter (·.routeId = route)
  rw [List.filter_cons] at filtered
  simpa [onRoute] using filtered

theorem totalWeight_perm {l l' : List RouteMapping} (h : l.Perm l') :
    totalWeight l = totalWeight l' :=
  (h.map _).sum_eq

theorem totalWeight_cons (m : RouteMapping) (l : List RouteMapping) :
    totalWeight (m :: l) = m.weight.toNat + totalWeight l :=
  List.sum_cons

/-! ## Balanced directories -/

theorem unmap_of_get?_eq_none {d : Directory} {k : MappingKey} (vacant : d.get? k = none) :
    d.unmap k = d := by
  have nothing : d.byKey.get? k = none := vacant
  rw [unmap, nothing]

theorem keyed_unmap {d : Directory} (keyed : ∀ k m, d.get? k = some m → m.key = k)
    (k : MappingKey) : ∀ k' m, (d.unmap k).get? k' = some m → m.key = k' := by
  intro k' m stored
  rw [get?_unmap] at stored
  split_ifs at stored
  exact keyed k' m stored

/-- The keys tell whether a route has mappings. -/
theorem any_keys_iff {d : Directory} (keyed : ∀ k m, d.get? k = some m → m.key = k)
    (route : RouteId) : d.byKey.keys.any (·.routeId = route) ↔ d.onRoute route ≠ [] := by
  rw [List.any_eq_true, onRoute_ne_nil_iff]
  constructor
  · rintro ⟨k, hk, same⟩
    obtain ⟨m, stored⟩ := Table.mem_keys.mp hk
    rw [← keyed k m stored] at same
    exact ⟨k, m, stored, of_decide_eq_true same⟩
  · rintro ⟨k, m, stored, same⟩
    refine ⟨k, Table.mem_keys.mpr ⟨m, stored⟩, ?_⟩
    rw [← keyed k m stored]
    exact decide_eq_true same

theorem balanced_empty : Balanced empty where
  keyed _ _ h := nomatch (h : none = some _)
  sums _ := rfl

namespace Balanced

variable {d : Directory}

theorem denominator_eq (h : d.Balanced) (route : RouteId) :
    d.denominator route = totalWeight (d.onRoute route) := by
  rw [denominator, h.sums]
  split_ifs with bare
  · rw [bare]
    rfl
  · rfl

/-- The route of a stored mapping has a sum, with the weight of the mapping in it. -/
theorem get?_sums (h : d.Balanced) {k : MappingKey} {m : RouteMapping}
    (stored : d.get? k = some m) : d.sums.get? m.routeId =
      some (m.weight.toNat + totalWeight ((d.unmap k).onRoute m.routeId)) := by
  have served : d.onRoute m.routeId ≠ [] := onRoute_ne_nil_iff.mpr ⟨k, m, stored, rfl⟩
  have parts := perm_onRoute (perm_list_unmap stored) m.routeId
  rw [if_pos rfl] at parts
  rw [h.sums, if_neg served, totalWeight_perm parts, totalWeight_cons]

theorem covers (h : d.Balanced) (k : MappingKey) : d.Covers k :=
  fun _ stored => ⟨_, h.get?_sums stored, Nat.le_add_right _ _⟩

theorem weight_le_denominator (h : d.Balanced) {k : MappingKey} {m : RouteMapping}
    (stored : d.get? k = some m) : m.weight.toNat ≤ d.denominator m.routeId := by
  rw [denominator, h.get?_sums stored, Option.getD_some]
  exact Nat.le_add_right _ _

/-- After a mapping is gone, its route keeps a sum if it has other mappings. -/
theorem sums_unmap (h : d.Balanced) {k : MappingKey} {m : RouteMapping}
    (stored : d.get? k = some m) : (d.unmap k).sums =
      if (d.unmap k).onRoute m.routeId = [] then d.sums.erase m.routeId
      else d.sums.insert m.routeId (totalWeight ((d.unmap k).onRoute m.routeId)) := by
  have left : m.weight.toNat + totalWeight ((d.unmap k).onRoute m.routeId) - m.weight.toNat =
      totalWeight ((d.unmap k).onRoute m.routeId) := Nat.add_sub_cancel_left _ _
  have others : (d.byKey.erase k).keys.any (·.routeId = m.routeId) ↔
      (d.unmap k).onRoute m.routeId ≠ [] := by
    rw [← byKey_unmap]
    exact any_keys_iff (keyed_unmap h.keyed k) m.routeId
  have gone : totalWeight ((d.unmap k).onRoute m.routeId) = 0 ∧
      ¬ (d.byKey.erase k).keys.any (·.routeId = m.routeId) ↔
        (d.unmap k).onRoute m.routeId = [] := by
    rw [others, not_not]
    exact ⟨And.right, fun bare => ⟨by rw [bare]; rfl, bare⟩⟩
  have found : d.byKey.get? k = some m := stored
  conv_lhs => rw [RouteMapping.Directory.unmap, found]
  simp only [subtract, h.get?_sums stored, left]
  by_cases bare : (d.unmap k).onRoute m.routeId = []
  · rw [if_pos bare, if_pos (gone.mpr bare)]
  · rw [if_neg bare, if_neg (mt gone.mp bare)]

theorem unmap (h : d.Balanced) (k : MappingKey) : (d.unmap k).Balanced := by
  refine ⟨keyed_unmap h.keyed k, fun route => ?_⟩
  cases stored : d.get? k with
  | none => rw [unmap_of_get?_eq_none stored, h.sums]
  | some m =>
    have parts := perm_onRoute (perm_list_unmap stored) route
    rw [h.sums_unmap stored]
    by_cases same : m.routeId = route
    · subst same
      split_ifs
      · simp [Table.get?_erase]
      · simp
    · -- The mappings of other routes stay.
      rw [if_neg same] at parts
      have kept : d.sums.get? route = if (d.unmap k).onRoute route = [] then none
          else some (totalWeight ((d.unmap k).onRoute route)) := by
        rw [h.sums, totalWeight_perm parts]
        simp only [← List.length_eq_zero_iff, parts.length_eq]
      rw [← kept]
      split_ifs
      · simp [Table.get?_erase, Ne.symm same]
      · simp [Table.get?_insert, Ne.symm same]

theorem map (h : d.Balanced) (m : RouteMapping) : (d.map m).Balanced := by
  have before := h.unmap m.key
  refine ⟨fun k m' stored => ?_, fun route => ?_⟩
  · rw [get?_map] at stored
    split_ifs at stored with hk
    · rw [← Option.some.inj stored, hk]
    · exact h.keyed k m' stored
  · have parts := perm_onRoute (perm_list_map d m) route
    have sums : (d.map m).sums = (d.unmap m.key).sums.insert m.routeId
        ((d.unmap m.key).denominator m.routeId + m.weight.toNat) := rfl
    rw [sums, Table.get?_insert, before.denominator_eq]
    by_cases same : m.routeId = route
    · subst same
      rw [if_pos rfl] at parts
      have served : (d.map m).onRoute m.routeId ≠ [] := by
        intro bare
        rw [bare] at parts
        simpa using parts.length_eq
      rw [if_pos (by simp), if_neg served, totalWeight_perm parts, totalWeight_cons, Nat.add_comm]
    · rw [if_neg same] at parts
      rw [if_neg (by simpa using Ne.symm same), before.sums, totalWeight_perm parts]
      simp only [← List.length_eq_zero_iff, parts.length_eq]

theorem write (h : d.Balanced) (w : Write MappingKey RouteMapping) :
    (store.write d w).Balanced := by
  cases w with
  | put m => exact h.map m
  | drop k => exact h.unmap k
  | clear => exact balanced_empty

/-- Directories with the same mappings are equal, whatever made them. -/
theorem eq_of_get? {d' : Directory} (h : d.Balanced) (h' : d'.Balanced)
    (same : ∀ k, d.get? k = d'.get? k) : d = d' := by
  have byKey : d.byKey = d'.byKey := Table.eq_of_get? same
  have onRoute : ∀ route, d.onRoute route = d'.onRoute route := by
    simp only [Directory.onRoute, list, byKey, implies_true]
  have sums : d.sums = d'.sums := Table.eq_of_get? fun route => by
    rw [h.sums, h'.sums, onRoute]
  cases d
  cases d'
  simp_all

end Balanced

theorem balanced_foldl_write (writes : List (Write MappingKey RouteMapping)) :
    (writes.foldl store.write empty).Balanced :=
  Store.foldl_write_induction balanced_empty (fun _ w h => h.write w) writes

theorem balanced_run (edits : List (Edit MappingKey RouteMapping)) : (store.run edits).Balanced :=
  store.run_eq_foldl_write edits ▸ balanced_foldl_write _

/-! ## Bounds -/

/-- The keys under which writes put something. -/
def keysPut (writes : List (Write MappingKey RouteMapping)) : Finset MappingKey :=
  (writes.filterMap fun
    | .put m => some m.key
    | .drop _ | .clear => none).toFinset

theorem mem_keysPut {writes : List (Write MappingKey RouteMapping)} {k : MappingKey} :
    k ∈ keysPut writes ↔ ∃ m, .put m ∈ writes ∧ m.key = k := by
  simp only [keysPut, List.mem_toFinset, List.mem_filterMap]
  constructor
  · rintro ⟨_ | _ | _, member, same⟩
    · exact ⟨_, member, Option.some.inj same⟩
    · cases same
    · cases same
  · rintro ⟨m, member, rfl⟩
    exact ⟨_, member, rfl⟩

theorem length_list_foldl_write_le (writes : List (Write MappingKey RouteMapping)) :
    (writes.foldl store.write empty).list.length ≤ (keysPut writes).card := by
  let d := writes.foldl store.write empty
  have put : d.byKey.keys.toFinset ⊆ keysPut writes := by
    intro k hk
    obtain ⟨m, stored⟩ := Table.mem_keys.mp (List.mem_toFinset.mp hk)
    obtain ⟨_, ⟨same, before, after, rfl, -⟩, -⟩ :=
      (obeys_store.get?_foldl_eq_some_iff writes).mp stored
    exact mem_keysPut.mpr ⟨_, by simp, same⟩
  calc d.list.length
      = d.byKey.keys.toFinset.card := by
        rw [List.toFinset_card_of_nodup d.byKey.nodup_keys, Table.keys, list, Table.values,
          List.length_map, List.length_map]
    _ ≤ (keysPut writes).card := Finset.card_le_card put

theorem totalWeight_le (l : List RouteMapping) : totalWeight l ≤ l.length * (2 ^ 32 - 1) := by
  have bounded : ∀ n ∈ l.map (·.weight.toNat), n ≤ 2 ^ 32 - 1 := by
    intro n hn
    obtain ⟨m, -, rfl⟩ := List.mem_map.mp hn
    have := m.weight.toNat_lt
    omega
  simpa [totalWeight] using List.sum_le_card_nsmul _ _ bounded

/-- Mappings of fewer than 2^32 keys do not exhaust the 64 bits of a sum. -/
theorem exact_of_few (writes : List (Write MappingKey RouteMapping))
    (w : Write MappingKey RouteMapping) (few : (keysPut (writes ++ [w])).card < 2 ^ 32) :
    (writes.foldl store.write empty).Exact w := by
  have balanced := balanced_foldl_write writes
  cases w with
  | clear => trivial
  | drop k => exact balanced.covers k
  | put m =>
    refine ⟨balanced.covers m.key, ?_⟩
    let d := writes.foldl store.write empty
    have stored : (d.map m).list.length < 2 ^ 32 := by
      have all := length_list_foldl_write_le (writes ++ [.put m])
      rw [List.foldl_concat] at all
      exact all.trans_lt few
    have parts := perm_onRoute (perm_list_map d m) m.routeId
    rw [if_pos rfl] at parts
    have short : ((d.map m).onRoute m.routeId).length < 2 ^ 32 :=
      (List.length_filter_le _ _).trans_lt stored
    calc (d.unmap m.key).denominator m.routeId + m.weight.toNat
        = totalWeight ((d.map m).onRoute m.routeId) := by
          rw [(balanced.unmap m.key).denominator_eq, totalWeight_perm parts, totalWeight_cons,
            Nat.add_comm]
      _ ≤ ((d.map m).onRoute m.routeId).length * (2 ^ 32 - 1) := totalWeight_le _
      _ ≤ (2 ^ 32 - 1) * (2 ^ 32 - 1) := Nat.mul_le_mul_right _ (Nat.le_pred_of_lt short)
      _ < 2 ^ 64 := by decide

/-! ## Any edits -/

/-- After any edits a key holds the mapping that was put there last, unless it was taken away since,
and the sums are those of the stored mappings. A route has a sum exactly as long as it has a
mapping. With fewer than 2^32 keys no write on the way takes out of a sum what was not in it, or
needs more than 64 bits. -/
theorem run_exact (edits : List (Edit MappingKey RouteMapping))
    (few : (keysPut (edits.flatMap Edit.writes)).card < 2 ^ 32) :
    let writes := edits.flatMap Edit.writes
    let d := store.run edits
    d = writes.foldl store.write empty ∧
    (∀ k m, d.get? k = some m ↔ Write.Standing key writes k m) ∧
    (∀ route, d.denominator route =
      ((d.list.filter (·.routeId = route)).map (·.weight.toNat)).sum) ∧
    (∀ route, (d.sums.get? route).isSome ↔ ∃ k m, d.get? k = some m ∧ m.routeId = route) ∧
    (∀ before w after, writes = before ++ w :: after → (before.foldl store.write empty).Exact w) ∧
    ∀ l, d.sync l = l.foldl map empty := by
  intro writes d
  have balanced : d.Balanced := balanced_run edits
  refine ⟨store.run_eq_foldl_write edits, fun k m => ?_, balanced.denominator_eq,
    fun route => ?_, ?_, fun _ => rfl⟩
  · rw [obeys_store.get?_run_eq_some_iff]
    simp [writes]
  · have sum : (d.sums.get? route).isSome ↔ d.onRoute route ≠ [] := by
      rw [balanced.sums]
      split_ifs with bare <;> simp [bare]
    rw [sum, onRoute_ne_nil_iff]
  · intro before w after split
    refine exact_of_few before w ((Finset.card_le_card ?_).trans_lt few)
    intro k hk
    obtain ⟨m, member, same⟩ := mem_keysPut.mp hk
    refine mem_keysPut.mpr ⟨m, ?_, same⟩
    rw [show edits.flatMap Edit.writes = before ++ w :: after from split]
    simp only [List.mem_append, List.mem_cons] at member ⊢
    tauto

/-- A mapping without weight is stored twice and outlives a heavy one of its route. -/
theorem run_exact_unweighted :
    let edits : List (Edit MappingKey RouteMapping) :=
      [.replace [⟨"r-1", "p-1", 7⟩, ⟨"r-1", "p-2", 4294967295⟩, ⟨"r-1", "p-1", 0⟩],
        .put ⟨"r-1", "p-1", 0⟩, .drop ⟨"r-1", "p-2"⟩, .drop ⟨"r-2", "p-1"⟩]
    (keysPut (edits.flatMap Edit.writes)).card < 2 ^ 32 ∧
      (∃ k m, (store.run edits).get? k = some m ∧ m.routeId = "r-1") ∧
      ((store.run edits).sums.get? "r-1").isSome := by
  intro edits
  have few : (keysPut (edits.flatMap Edit.writes)).card < 2 ^ 32 := by decide
  obtain ⟨-, stored, -, sums, -⟩ := run_exact edits few
  have standing : ∃ k m, (store.run edits).get? k = some m ∧ m.routeId = "r-1" :=
    ⟨⟨"r-1", "p-1"⟩, ⟨"r-1", "p-1", 0⟩, by decide, rfl⟩
  exact ⟨few, standing, (sums "r-1").mpr standing⟩

end MeshControl.RouteMapping.Directory
