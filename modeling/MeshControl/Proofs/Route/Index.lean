import Mathlib
import MeshControl.Proofs.Edits
import MeshControl.Proofs.Table
import MeshControl.Route.Directory

/-!
# The index of host names

Beside the routes stands an index of their ids by host name, which is changed with every single
route. It nevertheless lists just what a scan of the stored routes finds, whatever was edited
before, so that looking up a virtual address in the index is looking for it among all routes.

## Main definitions

* `Route.Directory.store` — how the directory is edited.
* `Route.Directory.Lists` — the index has an id under a host name.
* `Route.Directory.Indexed` — the index lists the stored routes, and nothing else.
* `Route.Directory.Indexed.vipOf?_eq_findSome?` — a look-up in the index is a scan.
* `Route.Directory.run_indexed` — so it is after any edits.
-/

namespace MeshControl.Route

/-- The route as it is stored. -/
def named (r : Route) : Route := { r with host := r.hostname }

namespace Directory

def store : Store RouteId Route Directory where
  empty := empty
  put := upsert
  drop := delete
  replace := sync
  replace_eq _ _ := rfl

theorem obeys_store : store.Obeys Route.id named get? where
  put := get?_upsert
  drop := get?_delete
  empty _ := rfl

/-- An index has an id under a host name. -/
def Lists (t : Table String (SortedSet RouteId)) (host : String) (id : RouteId) : Prop :=
  ∃ ids, t.get? host = some ids ∧ id ∈ ids

/-- Routes are stored under their ids with host names in lower case, and the index lists every one
of them under its host name, and nothing else. -/
structure Indexed (d : Directory) : Prop where
  keyed : ∀ id r, d.get? id = some r → r.id = id
  lower : ∀ id r, d.get? id = some r → Text.IsLower r.host
  lists : ∀ host id, Lists d.byHostname host id ↔ ∃ r, d.get? id = some r ∧ r.host = host
  /-- There is no host name without ids. -/
  inhabited : ∀ host ids, d.byHostname.get? host = some ids → ids.toList ≠ []

/-! ## The index -/

section Index

variable {t : Table String (SortedSet RouteId)} {host host' : String} {id id' : RouteId}

theorem lists_insert {ids : SortedSet RouteId} :
    Lists (t.insert host ids) host' id' ↔
      if host' = host then id' ∈ ids else Lists t host' id' := by
  unfold Lists
  simp only [Table.get?_insert, Std.LawfulEqCmp.compare_eq_iff_eq]
  split_ifs <;> simp

theorem lists_erase : Lists (t.erase host) host' id' ↔ host' ≠ host ∧ Lists t host' id' := by
  unfold Lists
  simp only [Table.get?_erase, Std.LawfulEqCmp.compare_eq_iff_eq]
  split_ifs with same <;> simp [same]

theorem lists_iff_of_get?_eq_some {ids : SortedSet RouteId} (h : t.get? host = some ids) :
    Lists t host id ↔ id ∈ ids := by
  simp [Lists, h]

theorem not_lists_of_get?_eq_none (h : t.get? host = none) : ¬ Lists t host id := by
  simp [Lists, h]

theorem lists_index :
    Lists (index t host id) host' id' ↔ host' = host ∧ id' = id ∨ Lists t host' id' := by
  rw [index, lists_insert]
  by_cases same : host' = host
  · subst same
    cases h : t.get? host' with
    | none =>
      have nothing : id' ∉ (∅ : SortedSet RouteId) := List.not_mem_nil
      simp [not_lists_of_get?_eq_none h, nothing]
    | some ids => simp [lists_iff_of_get?_eq_some h]
  · simp [same]

theorem lists_unindex :
    Lists (unindex t host id) host' id' ↔ Lists t host' id' ∧ ¬ (host' = host ∧ id' = id) := by
  unfold unindex
  cases h : t.get? host with
  | none =>
    refine ⟨fun listed => ⟨listed, ?_⟩, And.left⟩
    rintro ⟨rfl, rfl⟩
    exact not_lists_of_get?_eq_none h listed
  | some ids =>
    have left : (ids.erase id).isEmpty → ∀ id', id' ∈ ids → id' = id := by
      intro emptied id' member
      by_contra other
      have kept : id' ∈ (ids.erase id).toList := SortedSet.mem_erase.mpr ⟨other, member⟩
      rw [List.isEmpty_iff.mp emptied] at kept
      exact List.not_mem_nil kept
    by_cases same : host' = host
    · subst same
      rw [lists_iff_of_get?_eq_some h]
      simp only
      split_ifs with emptied
      · rw [lists_erase]
        exact iff_of_false (fun e => e.1 rfl) fun e => e.2 ⟨trivial, left emptied _ e.1⟩
      · rw [lists_insert, if_pos rfl, SortedSet.mem_erase]
        simp [and_comm]
    · simp only
      split_ifs with emptied
      · simp [lists_erase, same]
      · simp [lists_insert, same]

theorem inhabited_index (h : ∀ host ids, t.get? host = some ids → ids.toList ≠ [])
    {ids : SortedSet RouteId} (found : (index t host id).get? host' = some ids) :
    ids.toList ≠ [] := by
  rw [index, Table.get?_insert] at found
  split_ifs at found
  · obtain rfl := Option.some.inj found
    exact List.ne_nil_of_mem (SortedSet.mem_insert.mpr (.inl rfl))
  · exact h host' ids found

theorem inhabited_unindex (h : ∀ host ids, t.get? host = some ids → ids.toList ≠ [])
    {ids : SortedSet RouteId} (found : (unindex t host id).get? host' = some ids) :
    ids.toList ≠ [] := by
  unfold unindex at found
  split at found
  · exact h host' ids found
  · simp only at found
    split_ifs at found with emptied
    · rw [Table.get?_erase] at found
      split_ifs at found
      exact h host' ids found
    · rw [Table.get?_insert] at found
      split_ifs at found
      · obtain rfl := Option.some.inj found
        intro nil
        exact emptied (List.isEmpty_iff.mpr nil)
      · exact h host' ids found

end Index

/-! ## Indexed directories -/

theorem indexed_empty : Indexed empty where
  keyed _ _ h := nomatch (h : none = some _)
  lower _ _ h := nomatch (h : none = some _)
  lists _ _ := by
    constructor
    · rintro ⟨_, h, _⟩
      exact nomatch (h : none = some _)
    · rintro ⟨_, h, _⟩
      exact nomatch (h : none = some _)
  inhabited _ _ h := nomatch (h : none = some _)

namespace Indexed

variable {d : Directory}

theorem lists_iff (h : d.Indexed) {id : RouteId} {r : Route} (stored : d.get? id = some r)
    (host : String) : Lists d.byHostname host id ↔ r.host = host := by
  simp [h.lists, stored]

theorem not_lists (h : d.Indexed) {id : RouteId} (vacant : d.get? id = none) (host : String) :
    ¬ Lists d.byHostname host id := by
  simp [h.lists, vacant]

/-- A route that is put in is listed under its host name, and under no host name it had before. -/
theorem lists_upsert (h : d.Indexed) (r : Route) (host : String) (id : RouteId) :
    Lists (d.upsert r).byHostname host id ↔
      if id = r.id then r.hostname = host else Lists d.byHostname host id := by
  cases stored : d.get? r.id with
  | none =>
    have vacant : d.byId.get? r.id = none := stored
    simp only [Directory.upsert, vacant, lists_index]
    split_ifs with same
    · subst same
      simp [h.not_lists stored, eq_comm]
    · simp [same]
  | some previous =>
    have found : d.byId.get? r.id = some previous := stored
    simp only [Directory.upsert, found]
    split_ifs with kept same same
    · subst same
      rw [lists_index, h.lists_iff stored, kept]
      simp [hostname, eq_comm]
    · simp [lists_index, same]
    · subst same
      rw [lists_index, lists_unindex, h.lists_iff stored]
      simp [hostname, eq_comm]
    · simp [lists_index, lists_unindex, same]

theorem inhabited_upsert (h : d.Indexed) (r : Route) {host : String} {ids : SortedSet RouteId}
    (found : (d.upsert r).byHostname.get? host = some ids) : ids.toList ≠ [] := by
  refine inhabited_index ?_ found
  split
  · split_ifs
    · exact h.inhabited
    · exact fun _ _ => inhabited_unindex h.inhabited
  · exact h.inhabited

theorem upsert (h : d.Indexed) (r : Route) : (d.upsert r).Indexed := by
  constructor
  · intro id r' stored
    rw [get?_upsert] at stored
    split_ifs at stored with same
    · rw [← Option.some.inj stored, same]
    · exact h.keyed id r' stored
  · intro id r' stored
    rw [get?_upsert] at stored
    split_ifs at stored
    · rw [← Option.some.inj stored]
      exact Text.isLower_lower r.host
    · exact h.lower id r' stored
  · intro host id
    rw [h.lists_upsert, get?_upsert]
    split_ifs
    · simp
    · exact h.lists host id
  · exact fun _ _ => h.inhabited_upsert r

theorem delete (h : d.Indexed) (id : RouteId) : (d.delete id).Indexed := by
  cases stored : d.get? id with
  | none =>
    have same : d.delete id = d := by
      have nothing : d.byId.get? id = none := stored
      rw [Directory.delete, nothing]
    rwa [same]
  | some r =>
    have byHostname : (d.delete id).byHostname = unindex d.byHostname r.host id := by
      have found : d.byId.get? id = some r := stored
      rw [Directory.delete, found]
    constructor
    · intro id' r' stored'
      rw [get?_delete] at stored'
      split_ifs at stored'
      exact h.keyed id' r' stored'
    · intro id' r' stored'
      rw [get?_delete] at stored'
      split_ifs at stored'
      exact h.lower id' r' stored'
    · intro host id'
      rw [byHostname, lists_unindex, h.lists, get?_delete]
      by_cases same : id' = id
      · subst same
        simp [stored, eq_comm]
      · simp [same]
    · intro host ids found
      rw [byHostname] at found
      exact inhabited_unindex h.inhabited found

theorem write (h : d.Indexed) (w : Write RouteId Route) : (store.write d w).Indexed := by
  cases w with
  | put r => exact h.upsert r
  | drop id => exact h.delete id
  | clear => exact indexed_empty

end Indexed

theorem indexed_foldl_write (writes : List (Write RouteId Route)) :
    (writes.foldl store.write empty).Indexed :=
  Store.foldl_write_induction indexed_empty (fun _ w h => h.write w) writes

theorem indexed_run (edits : List (Edit RouteId Route)) : (store.run edits).Indexed :=
  store.run_eq_foldl_write edits ▸ indexed_foldl_write _

/-! ## Look-ups and scans -/

theorem mem_list {d : Directory} {r : Route} : r ∈ d.list ↔ ∃ id, d.get? id = some r :=
  Table.mem_values

namespace Indexed

variable {d : Directory}

theorem get?_id (h : d.Indexed) {r : Route} (stored : r ∈ d.list) : d.get? r.id = some r := by
  obtain ⟨id, found⟩ := mem_list.mp stored
  rwa [h.keyed id r found]

/-- Routes are listed in the order of their ids. -/
theorem increasing_list (h : d.Indexed) :
    d.list.Pairwise fun r s => compare r.id s.id = .lt := by
  rw [list, Table.values, List.pairwise_map]
  refine d.byId.increasing.imp_of_mem fun {e f} he hf order => ?_
  have keyed : ∀ e ∈ d.byId.entries, e.2.id = e.1 :=
    fun e he => h.keyed e.1 e.2 (d.byId.get?_eq_some_iff.mpr he)
  rwa [keyed e he, keyed f hf]

/-- The ids of a host name are those of its routes, in their order. -/
theorem toList_eq (h : d.Indexed) {host : String} {ids : SortedSet RouteId}
    (found : d.byHostname.get? host = some ids) :
    ids.toList = (d.list.filter (·.host = host)).map (·.id) := by
  refine eq_of_increasing (fun id : RouteId => id) ids.increasing ?_ fun id => ?_
  · rw [List.pairwise_map]
    exact h.increasing_list.filter _
  · rw [SortedSet.mem_toList, ← lists_iff_of_get?_eq_some found, h.lists, List.mem_map]
    constructor
    · rintro ⟨r, stored, same⟩
      refine ⟨r, List.mem_filter.mpr ⟨mem_list.mpr ⟨id, stored⟩, ?_⟩, h.keyed id r stored⟩
      exact decide_eq_true same
    · rintro ⟨r, member, rfl⟩
      obtain ⟨stored, same⟩ := List.mem_filter.mp member
      exact ⟨r, h.get?_id stored, of_decide_eq_true same⟩

/-- The index has a host name exactly if a stored route has it, with the ids of those routes. -/
theorem get?_byHostname_eq_some_iff (h : d.Indexed) {host : String} {ids : SortedSet RouteId} :
    d.byHostname.get? host = some ids ↔
      ids.toList ≠ [] ∧ ∀ id, id ∈ ids ↔ ∃ r, d.get? id = some r ∧ r.host = host := by
  simp only [← h.lists]
  constructor
  · intro found
    exact ⟨h.inhabited host ids found, fun id => (lists_iff_of_get?_eq_some found).symm⟩
  · rintro ⟨inhabited, listed⟩
    obtain ⟨id, member⟩ := List.exists_mem_of_ne_nil _ inhabited
    obtain ⟨ids', found, -⟩ := (listed id).mp member
    have same : ids' = ids := SortedSet.ext fun id => by
      rw [listed, lists_iff_of_get?_eq_some found]
    rwa [← same]

/-- Directories with the same routes are equal, whatever made them. -/
theorem eq_of_get? {d' : Directory} (h : d.Indexed) (h' : d'.Indexed)
    (same : ∀ id, d.get? id = d'.get? id) : d = d' := by
  have byId : d.byId = d'.byId := Table.eq_of_get? same
  have byHostname : d.byHostname = d'.byHostname := by
    refine Table.eq_of_get? fun host => Option.ext fun ids => ?_
    simp only [h.get?_byHostname_eq_some_iff, h'.get?_byHostname_eq_some_iff, same]
  cases d
  cases d'
  simp_all

/-- What the index finds for a host name is what a scan of its routes finds. -/
theorem vipOf?_eq_findSome? (h : d.Indexed) (hostname : String) : d.vipOf? hostname =
    (d.list.filter (·.host = lookupName hostname)).findSome? (·.vip) := by
  rw [vipOf?]
  cases found : d.byHostname.get? (lookupName hostname) with
  | none =>
    have nothing : d.list.filter (·.host = lookupName hostname) = [] := by
      refine List.filter_eq_nil_iff.mpr fun r stored same => ?_
      exact not_lists_of_get?_eq_none found
        ((h.lists _ r.id).mpr ⟨r, h.get?_id stored, of_decide_eq_true same⟩)
    rw [nothing]
    rfl
  | some ids =>
    have stored : ∀ r ∈ d.list.filter (·.host = lookupName hostname),
        (d.byId.get? r.id).bind (·.vip) = r.vip := by
      intro r member
      have stored : d.byId.get? r.id = some r := h.get?_id (List.mem_filter.mp member).1
      rw [stored]
      rfl
    rw [Option.bind_some, h.toList_eq found, List.findSome?_map, ← List.head?_filterMap,
      ← List.head?_filterMap]
    exact congrArg List.head? (List.filterMap_congr stored)

end Indexed

/-! ## Any edits -/

/-- After any edits an id holds the route that was put there last, unless it was taken away since,
with its host in lower case. The index has the ids of the stored routes under their hosts and
nothing else, not even an empty entry. The address of a host name is that of the first route, in
the order of their ids, that has the host as it is looked up, and an address. -/
theorem run_indexed (edits : List (Edit RouteId Route)) :
    let writes := edits.flatMap Edit.writes
    let d := store.run edits
    d = writes.foldl store.write empty ∧
    (∀ id s, d.get? id = some s ↔
      ∃ r, Write.Standing Route.id writes id r ∧ s = { r with host := Text.lower r.host }) ∧
    (∀ id s, d.get? id = some s → Text.IsLower s.host) ∧
    (∀ host id, (∃ ids, d.byHostname.get? host = some ids ∧ id ∈ ids) ↔
      ∃ s, d.get? id = some s ∧ s.host = host) ∧
    (∀ host ids, d.byHostname.get? host = some ids → ids ≠ ∅) ∧
    d.list.Pairwise (fun r s => r.id < s.id) ∧
    (∀ r, r ∈ d.list ↔ d.get? r.id = some r) ∧
    ∀ hostname, d.vipOf? hostname =
      (d.list.filter (·.host = Text.lower (Text.trimEnd '.' hostname))).findSome? (·.vip) := by
  intro writes d
  have indexed : d.Indexed := indexed_run edits
  refine ⟨store.run_eq_foldl_write edits, fun id s => ?_, indexed.lower, indexed.lists, ?_, ?_, ?_,
    indexed.vipOf?_eq_findSome?⟩
  · rw [obeys_store.get?_run_eq_some_iff]
    simp only [writes, named, hostname, eq_comm]
  · rintro host ids found rfl
    exact indexed.inhabited host ∅ found rfl
  · exact indexed.increasing_list.imp fun order => compare_lt_iff_lt.mp order
  · exact fun r => ⟨indexed.get?_id, fun stored => mem_list.mpr ⟨r.id, stored⟩⟩

end Directory

end MeshControl.Route
