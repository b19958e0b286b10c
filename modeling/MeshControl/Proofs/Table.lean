import Mathlib.Data.List.Induction
import Mathlib.Data.List.Sort
import Mathlib.Data.Set.Card
import MeshControl.SortedSet
import MeshControl.Table.Group

/-!
# Tables and sets by their contents

What is listed in increasing order is determined by what is in the list. So a table is determined
by its look-ups, a set by its members, and the groups of a list by what has each key.

## Main statements

* `eq_of_increasing` — increasing lists with the same elements are equal.
* `Table.eq_of_get?`, `SortedSet.ext` — tables and sets by their contents.
* `Table.entries_map_congr`, `Table.entries_group_congr` — what is made of entries and of groups.
* `Table.entries_group_congr_of_perm` — what is made of the groups of a list in another order.
* `Table.ofList_entries` — a table is that of its entries.
* `Table.insert_empty_inj`, `Table.perm_values_erase` — an entry alone, and an entry and the rest.
* `Table.entries_group_filter` — the groups of certain keys.
-/

namespace MeshControl

open Std

universe u v w

/-- Lists that increase by a key are equal if they have the same elements. -/
theorem eq_of_increasing {α : Type v} {κ : Type u} [Ord κ] [TransOrd κ] (key : α → κ)
    {l l' : List α} (hl : l.Pairwise fun a b => compare (key a) (key b) = .lt)
    (hl' : l'.Pairwise fun a b => compare (key a) (key b) = .lt) (same : ∀ a, a ∈ l ↔ a ∈ l') :
    l = l' := by
  have irreflexive : Irrefl fun a b => compare (key a) (key b) = .lt := ⟨by simp⟩
  have antisymmetric : Antisymm fun a b => compare (key a) (key b) = .lt := by
    refine ⟨fun a b hab hba => ?_⟩
    have := TransCmp.lt_trans hab hba
    simp at this
  exact hl.eq_of_mem_iff hl' same

namespace Table

variable {κ : Type u} {α : Type v} {β : Type w} [Ord κ]

theorem lookup_map (f : α → β) (k : κ) (l : List (κ × α)) :
    lookup k (l.map fun e => (e.1, f e.2)) = (lookup k l).map f := by
  induction l with
  | nil => rfl
  | cons e l ih =>
    simp only [List.map_cons, lookup]
    split_ifs
    · rfl
    · exact ih

@[simp] theorem get?_map (f : α → β) (t : Table κ α) (k : κ) :
    (t.map f).get? k = (t.get? k).map f :=
  lookup_map f k t.entries

variable [TransOrd κ] [LawfulEqOrd κ]

/-- Two tables that answer every look-up alike are equal. -/
theorem eq_of_get? {s t : Table κ α} (h : ∀ k, s.get? k = t.get? k) : s = t := by
  have same : ∀ e : κ × α, e ∈ s.entries ↔ e ∈ t.entries := by
    rintro ⟨k, a⟩
    rw [← get?_eq_some_iff, ← get?_eq_some_iff, h]
  have entries := eq_of_increasing Prod.fst s.increasing t.increasing same
  cases s
  cases t
  simpa using entries

/-- Make something of every entry. -/
def mapEntries (F : κ → α → β) (t : Table κ α) : Table κ β :=
  ⟨t.entries.map fun e => (e.1, F e.1 e.2), by simpa [List.pairwise_map] using t.increasing⟩

@[simp] theorem get?_mapEntries (F : κ → α → β) (t : Table κ α) (k : κ) :
    (t.mapEntries F).get? k = (t.get? k).map (F k) := by
  ext b
  rw [get?_eq_some_iff, Option.map_eq_some_iff, mapEntries, List.mem_map]
  constructor
  · rintro ⟨⟨_, a⟩, ha, same⟩
    obtain ⟨rfl, rfl⟩ := Prod.mk.inj same
    exact ⟨a, (get?_eq_some_iff t).mpr ha, rfl⟩
  · rintro ⟨a, ha, rfl⟩
    exact ⟨(k, a), (get?_eq_some_iff t).mp ha, rfl⟩

/-- What is made of every entry depends on what is made of each look-up. -/
theorem entries_map_congr {F : κ → α → β} {s t : Table κ α}
    (h : ∀ k, (s.get? k).map (F k) = (t.get? k).map (F k)) :
    s.entries.map (fun e => F e.1 e.2) = t.entries.map fun e => F e.1 e.2 := by
  have same : s.mapEntries F = t.mapEntries F :=
    eq_of_get? fun k => by rw [get?_mapEntries, get?_mapEntries, h]
  have values : ∀ t : Table κ α, (t.mapEntries F).values = t.entries.map fun e => F e.1 e.2 := by
    intro t
    simp [mapEntries, Table.values]
  rw [← values, ← values, same]

/-- What a table of a list holds stands in the list. -/
theorem mem_of_get?_ofList {l : List (κ × α)} {k : κ} {a : α} (h : (ofList l).get? k = some a) :
    (k, a) ∈ l := by
  induction l using List.reverseRecOn with
  | nil => simp [ofList] at h
  | append_singleton l e ih =>
    have last : ofList (l ++ [e]) = (ofList l).insert e.1 e.2 := List.foldl_concat ..
    rw [last, get?_insert] at h
    rw [List.mem_append, List.mem_singleton]
    split_ifs at h with hk
    · obtain rfl := Option.some.inj h
      exact .inr (Prod.ext (LawfulEqCmp.compare_eq_iff_eq.mp hk) rfl)
    · exact .inl (ih h)

theorem isSome_get?_ofList {l : List (κ × α)} {e : κ × α} (h : e ∈ l) :
    ((ofList l).get? e.1).isSome := by
  induction l using List.reverseRecOn with
  | nil => exact absurd h List.not_mem_nil
  | append_singleton l d ih =>
    have last : ofList (l ++ [d]) = (ofList l).insert d.1 d.2 := List.foldl_concat ..
    rw [last, get?_insert]
    split_ifs with same
    · rfl
    · rcases List.mem_append.mp h with earlier | there
      · exact ih earlier
      · obtain rfl := List.mem_singleton.mp there
        exact absurd Std.ReflCmp.compare_self same

/-- A table is that of its entries. -/
theorem ofList_entries (t : Table κ α) : ofList t.entries = t := by
  refine eq_of_get? fun k => ?_
  have stored : ∀ a, (ofList t.entries).get? k = some a → t.get? k = some a :=
    fun a h => (get?_eq_some_iff t).mpr (mem_of_get?_ofList h)
  cases known : t.get? k with
  | none =>
    cases found : (ofList t.entries).get? k with
    | none => rfl
    | some a => rw [stored a found] at known; cases known
  | some a =>
    obtain ⟨b, found⟩ :=
      Option.isSome_iff_exists.mp (isSome_get?_ofList ((get?_eq_some_iff t).mp known))
    rw [found, ← stored b found, known]

/-- A table of what is made of every entry finds what is made of the entry it finds. -/
theorem get?_ofList_map_entries (F : κ → α → β) (t : Table κ α) (k : κ) :
    (ofList (t.entries.map fun e => (e.1, F e.1 e.2))).get? k = (t.get? k).map (F k) := by
  rw [← get?_mapEntries, ← ofList_entries (t.mapEntries F)]
  rfl

/-! ## Single entries -/

theorem mem_values {t : Table κ α} {a : α} : a ∈ t.values ↔ ∃ k, t.get? k = some a := by
  simp only [values, List.mem_map, Prod.exists, exists_eq_right, get?_eq_some_iff]

theorem mem_keys {t : Table κ α} {k : κ} : k ∈ t.keys ↔ ∃ a, t.get? k = some a := by
  simp only [keys, List.mem_map, Prod.exists, exists_and_right, exists_eq_right, get?_eq_some_iff]

omit [TransOrd κ] in
theorem nodup_keys (t : Table κ α) : t.keys.Nodup := by
  rw [keys, List.Nodup, List.pairwise_map]
  refine t.increasing.imp fun h same => ?_
  rw [same] at h
  simp at h

/-- The size is the number of keys that hold something. -/
theorem size_eq_ncard (t : Table κ α) : t.size = {k | (t.get? k).isSome}.ncard := by
  classical
  have keys : {k | (t.get? k).isSome} = (t.keys.toFinset : Set κ) := by
    ext k
    simp [mem_keys, Option.isSome_iff_exists]
  rw [keys, Set.ncard_coe_finset, List.toFinset_card_of_nodup t.nodup_keys, size, Table.keys,
    List.length_map]

omit [TransOrd κ] in
theorem nodup_entries (t : Table κ α) : t.entries.Nodup := List.Nodup.of_map _ t.nodup_keys

theorem erase_of_get?_eq_none {t : Table κ α} {k : κ} (h : t.get? k = none) : t.erase k = t := by
  refine eq_of_get? fun k' => ?_
  rw [get?_erase]
  split_ifs with hk
  · rw [LawfulEqCmp.compare_eq_iff_eq.mp hk, h]
  · rfl

theorem erase_insert (t : Table κ α) (k : κ) (a : α) : (t.insert k a).erase k = t.erase k := by
  refine eq_of_get? fun k' => ?_
  rw [get?_erase, get?_erase, get?_insert]
  split_ifs <;> rfl

/-- A table with one entry is known by it. -/
theorem insert_empty_inj {k k' : κ} {a a' : α} :
    (∅ : Table κ α).insert k a = (∅ : Table κ α).insert k' a' ↔ k = k' ∧ a = a' := by
  constructor
  · intro same
    have entries : [(k, a)] = [(k', a')] := congrArg Table.entries same
    simpa using entries
  · rintro ⟨rfl, rfl⟩
    rfl

/-- A table consists of any of its entries and the rest. -/
theorem perm_values_erase {t : Table κ α} {k : κ} {a : α} (h : t.get? k = some a) :
    t.values.Perm (a :: (t.erase k).values) := by
  have fresh : (k, a) ∉ (t.erase k).entries := by
    rw [← get?_eq_some_iff, get?_erase]
    simp
  have entries : t.entries.Perm ((k, a) :: (t.erase k).entries) := by
    refine (List.perm_ext_iff_of_nodup t.nodup_entries
      (List.nodup_cons.mpr ⟨fresh, nodup_entries _⟩)).mpr ?_
    rintro ⟨k', a'⟩
    rw [List.mem_cons, Prod.mk.injEq, ← get?_eq_some_iff, ← get?_eq_some_iff, get?_erase]
    by_cases hk : k' = k
    · subst hk
      simp [h, eq_comm]
    · simp [hk, LawfulEqCmp.compare_eq_iff_eq]
  exact entries.map Prod.snd

/-! ## Groups -/

omit [TransOrd κ] [LawfulEqOrd κ] in
theorem having_filter (f : α → κ) (p : α → Bool) (k : κ) (l : List α) :
    having f k (l.filter p) = (having f k l).filter p := by
  rw [having, having, List.filter_comm]

omit [TransOrd κ] in
theorem mem_having {f : α → κ} {k : κ} {a : α} {l : List α} :
    a ∈ having f k l ↔ a ∈ l ∧ f a = k := by
  rw [having, List.mem_filter, beq_iff_eq, LawfulEqCmp.compare_eq_iff_eq, eq_comm]

omit [TransOrd κ] in
theorem having_ne_nil_iff {f : α → κ} {k : κ} {l : List α} :
    having f k l ≠ [] ↔ ∃ a ∈ l, f a = k := by
  simp only [ne_eq, List.eq_nil_iff_forall_not_mem, mem_having, not_forall, not_not]

/-- What is made of the groups depends on which keys have a group and on what is made of each. -/
theorem entries_group_congr {f : α → κ} {F : κ → List α → β} {l l' : List α}
    (keys : ∀ k, having f k l = [] ↔ having f k l' = [])
    (made : ∀ k, having f k l ≠ [] → having f k l' ≠ [] →
      F k (having f k l) = F k (having f k l')) :
    (group f l).entries.map (fun e => F e.1 e.2) =
      (group f l').entries.map fun e => F e.1 e.2 := by
  refine entries_map_congr fun k => ?_
  rw [get?_group, get?_group]
  by_cases none : having f k l = []
  · rw [if_pos none, if_pos ((keys k).mp none)]
  · have some' : having f k l' ≠ [] := fun h => none ((keys k).mpr h)
    rw [if_neg none, if_neg some', Option.map_some, Option.map_some, made k none some']

/-- A list in another order has groups of the same keys. -/
theorem entries_group_congr_of_perm {f : α → κ} {F : κ → List α → β} {l l' : List α}
    (same : l.Perm l') (made : ∀ k, F k (having f k l) = F k (having f k l')) :
    (group f l).entries.map (fun e => F e.1 e.2) =
      (group f l').entries.map fun e => F e.1 e.2 := by
  refine entries_group_congr (fun k => ?_) fun k _ _ => made k
  have groups : (having f k l).Perm (having f k l') := same.filter _
  rw [← List.length_eq_zero_iff, ← List.length_eq_zero_iff, groups.length_eq]

/-- Elements that keep their keys can be changed before grouping if nothing made of a group shows
the change. -/
theorem entries_group_map {f : α → κ} {c : α → α} (keeps : ∀ a, f (c a) = f a)
    {F : κ → List α → β} (hidden : ∀ k g, F k (g.map c) = F k g) (l : List α) :
    (group f (l.map c)).entries.map (fun e => F e.1 e.2) =
      (group f l).entries.map fun e => F e.1 e.2 := by
  have mapped : ∀ k, having f k (l.map c) = (having f k l).map c := by
    intro k
    simp only [having, List.filter_map, Function.comp_def, keeps]
  refine entries_group_congr (fun k => ?_) fun k _ _ => ?_
  · rw [mapped, List.map_eq_nil_iff]
  · rw [mapped, hidden]

/-- The groups of certain keys are the groups of the elements with those keys. -/
theorem entries_group_filter (f : α → κ) (p : κ → Bool) (l : List α) :
    (group f l).entries.filter (fun e => p e.1) =
      (group f (l.filter fun a => p (f a))).entries := by
  refine eq_of_increasing Prod.fst ((group f l).increasing.filter _) (group f _).increasing ?_
  rintro ⟨k, g⟩
  rw [List.mem_filter, mem_entries_group, mem_entries_group, having_filter]
  have constant : ∀ a ∈ having f k l, p (f a) = p k := fun a ha => by rw [(mem_having.mp ha).2]
  by_cases hp : p k
  · have whole : (having f k l).filter (fun a => p (f a)) = having f k l :=
      List.filter_eq_self.mpr fun a ha => by rw [constant a ha, hp]
    rw [whole]
    simp [hp]
  · have nothing : (having f k l).filter (fun a => p (f a)) = [] :=
      List.filter_eq_nil_iff.mpr fun a ha => by rw [constant a ha]; exact hp
    rw [nothing]
    refine iff_of_false (fun h => hp h.2) ?_
    rintro ⟨rfl, h⟩
    exact h rfl

end Table

/-! ## Sets -/

namespace SortedSet

variable {α : Type u} [Ord α]

@[simp] theorem mem_toList {a : α} {s : SortedSet α} : a ∈ s.toList ↔ a ∈ s := Iff.rfl

theorem nodup_toList [LawfulEqOrd α] {s : SortedSet α} : s.toList.Nodup := by
  refine s.increasing.imp fun h same => ?_
  rw [same] at h
  simp at h

variable [TransOrd α]

theorem ext {s t : SortedSet α} (h : ∀ a, a ∈ s ↔ a ∈ t) : s = t := by
  have elements := eq_of_increasing id s.increasing t.increasing h
  cases s
  cases t
  simpa using elements

theorem ofList_toList [LawfulEqOrd α] (s : SortedSet α) : ofList s.toList = s :=
  ext fun _ => mem_ofList

/-- The order and the repetitions of a list do not matter to its set. -/
theorem ofList_congr [LawfulEqOrd α] {l l' : List α} (h : ∀ a, a ∈ l ↔ a ∈ l') :
    ofList l = ofList l' :=
  ext fun a => by rw [mem_ofList, mem_ofList, h]

end SortedSet

end MeshControl
