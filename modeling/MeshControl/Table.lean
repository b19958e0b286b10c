/-!
# Tables in key order

A `Table κ α` keeps one entry per key, listed in increasing order of the keys. The order of
the entries is therefore a function of their contents, and two tables that answer every
look-up alike are equal.

## Main definitions

* `Table` — the entries together with their order.
* `Table.get?`, `Table.insert`, `Table.erase`, `Table.ofList`.
-/

namespace MeshControl

open Std

universe u v w

variable {κ : Type u} {α : Type v} {β : Type w} [Ord κ]

/-- Finitely many entries in increasing order of their keys. -/
structure Table (κ : Type u) (α : Type v) [Ord κ] where
  entries : List (κ × α)
  increasing : entries.Pairwise fun a b => compare a.1 b.1 = .lt

namespace Table

/-! ## Entry lists -/

/-- The value beside the first entry with key `k`. -/
def lookup (k : κ) : List (κ × α) → Option α
  | [] => none
  | (k', a) :: rest => if compare k k' = .eq then some a else lookup k rest

/-- Put `a` under `k` at the place that the order of the keys gives it. -/
def insertEntry (k : κ) (a : α) : List (κ × α) → List (κ × α)
  | [] => [(k, a)]
  | (k', a') :: rest =>
    match compare k k' with
    | .lt => (k, a) :: (k', a') :: rest
    | .eq => (k, a) :: rest
    | .gt => (k', a') :: insertEntry k a rest

/-- Drop the entries with key `k`. -/
def eraseEntry (k : κ) (entries : List (κ × α)) : List (κ × α) :=
  entries.filter fun e => compare k e.1 != .eq

theorem mem_insertEntry {k : κ} {a : α} {e : κ × α} {l : List (κ × α)}
    (h : e ∈ insertEntry k a l) : e = (k, a) ∨ e ∈ l := by
  induction l with
  | nil => simpa [insertEntry] using h
  | cons x l ih =>
    obtain ⟨k', a'⟩ := x
    simp only [insertEntry] at h
    split at h <;> simp only [List.mem_cons] at h ⊢
    · exact h
    · rcases h with h | h <;> simp [h]
    · rcases h with h | h
      · simp [h]
      · rcases ih h with h | h <;> simp [h]

theorem increasing_insertEntry [TransOrd κ] [LawfulEqOrd κ] (k : κ) (a : α)
    {l : List (κ × α)} (h : l.Pairwise fun a b => compare a.1 b.1 = .lt) :
    (insertEntry k a l).Pairwise fun a b => compare a.1 b.1 = .lt := by
  induction l with
  | nil => simp [insertEntry]
  | cons x l ih =>
    obtain ⟨k', a'⟩ := x
    rw [List.pairwise_cons] at h
    simp only [insertEntry]
    split
    · rename_i hc
      refine List.pairwise_cons.2 ⟨fun e he => ?_, List.pairwise_cons.2 h⟩
      rcases List.mem_cons.1 he with rfl | he
      · exact hc
      · exact TransCmp.lt_trans hc (h.1 e he)
    · rename_i hc
      have hk : k = k' := LawfulEqCmp.compare_eq_iff_eq.1 hc
      subst hk
      exact List.pairwise_cons.2 ⟨h.1, h.2⟩
    · rename_i hc
      refine List.pairwise_cons.2 ⟨fun e he => ?_, ih h.2⟩
      rcases mem_insertEntry he with rfl | he
      · exact OrientedCmp.gt_iff_lt.1 hc
      · exact h.1 e he

/-! ## Operations -/

/-- The table without entries. -/
def empty : Table κ α := ⟨[], .nil⟩

instance : EmptyCollection (Table κ α) := ⟨empty⟩

instance : Inhabited (Table κ α) := ⟨empty⟩

def get? (t : Table κ α) (k : κ) : Option α := lookup k t.entries

def contains (t : Table κ α) (k : κ) : Bool := (t.get? k).isSome

/-- Store `a` under `k`, in place of what was stored there. -/
def insert [TransOrd κ] [LawfulEqOrd κ] (t : Table κ α) (k : κ) (a : α) : Table κ α :=
  ⟨insertEntry k a t.entries, increasing_insertEntry k a t.increasing⟩

def erase (t : Table κ α) (k : κ) : Table κ α :=
  ⟨eraseEntry k t.entries, t.increasing.filter _⟩

def map (f : α → β) (t : Table κ α) : Table κ β :=
  ⟨t.entries.map fun e => (e.1, f e.2), by
    simpa [List.pairwise_map] using t.increasing⟩

def keys (t : Table κ α) : List κ := t.entries.map (·.1)

/-- The values in the order of their keys. -/
def values (t : Table κ α) : List α := t.entries.map (·.2)

def size (t : Table κ α) : Nat := t.entries.length

def isEmpty (t : Table κ α) : Bool := t.entries.isEmpty

/-- The table of the last entry per key of a list. -/
def ofList [TransOrd κ] [LawfulEqOrd κ] (l : List (κ × α)) : Table κ α :=
  l.foldl (fun t e => t.insert e.1 e.2) empty

instance [DecidableEq κ] [DecidableEq α] : DecidableEq (Table κ α) := fun s t =>
  decidable_of_iff (s.entries = t.entries) (by cases s; cases t; simp)

/-! ## Look-ups -/

@[simp] theorem get?_empty (k : κ) : (empty : Table κ α).get? k = none := rfl

theorem lookup_insertEntry [TransOrd κ] [LawfulEqOrd κ] (k k' : κ) (a : α) (l : List (κ × α)) :
    lookup k' (insertEntry k a l) = if compare k' k = .eq then some a else lookup k' l := by
  induction l with
  | nil => simp [insertEntry, lookup]
  | cons x l ih =>
    obtain ⟨kx, ax⟩ := x
    simp only [insertEntry]
    split
    · simp [lookup]
    · rename_i hc
      have hk : k = kx := LawfulEqCmp.compare_eq_iff_eq.1 hc
      subst hk
      simp only [lookup]
      split <;> rfl
    · rename_i hc
      simp only [lookup, ih]
      by_cases h1 : compare k' kx = .eq
      · have h2 : k' = kx := LawfulEqCmp.compare_eq_iff_eq.1 h1
        have h3 : compare k' k ≠ .eq := by
          rw [h2, @OrientedCmp.eq_swap _ compare _ kx k, hc]
          decide
        simp [h1, h3]
      · simp [h1]

theorem get?_insert [TransOrd κ] [LawfulEqOrd κ] (t : Table κ α) (k k' : κ) (a : α) :
    (t.insert k a).get? k' = if compare k' k = .eq then some a else t.get? k' :=
  lookup_insertEntry k k' a t.entries

@[simp] theorem get?_insert_self [TransOrd κ] [LawfulEqOrd κ] (t : Table κ α) (k : κ) (a : α) :
    (t.insert k a).get? k = some a := by
  simp [get?_insert]

theorem get?_erase [TransOrd κ] [LawfulEqOrd κ] (t : Table κ α) (k k' : κ) :
    (t.erase k).get? k' = if compare k' k = .eq then none else t.get? k' := by
  obtain ⟨l, hl⟩ := t
  simp only [erase, get?, eraseEntry]
  clear hl
  induction l with
  | nil => simp [lookup]
  | cons x l ih =>
    obtain ⟨kx, ax⟩ := x
    by_cases hx : compare k kx = .eq
    · have hk : k = kx := LawfulEqCmp.compare_eq_iff_eq.1 hx
      subst hk
      rw [List.filter_cons_of_neg (by simp), ih]
      simp only [lookup]
      split <;> rfl
    · rw [List.filter_cons_of_pos (by simpa using hx)]
      simp only [lookup, ih]
      by_cases h1 : compare k' kx = .eq
      · have h2 : k' = kx := LawfulEqCmp.compare_eq_iff_eq.1 h1
        subst h2
        have h3 : compare k' k ≠ .eq := fun h => hx (by
          rw [LawfulEqCmp.compare_eq_iff_eq.1 h]; simp)
        simp [h3]
      · simp [h1]

theorem lookup_eq_some_iff [TransOrd κ] [LawfulEqOrd κ] {l : List (κ × α)}
    (h : l.Pairwise fun a b => compare a.1 b.1 = .lt) {k : κ} {a : α} :
    lookup k l = some a ↔ (k, a) ∈ l := by
  induction l with
  | nil => simp [lookup]
  | cons x l ih =>
    obtain ⟨kx, ax⟩ := x
    rw [List.pairwise_cons] at h
    simp only [lookup]
    by_cases hk : compare k kx = .eq
    · have hk' : k = kx := LawfulEqCmp.compare_eq_iff_eq.1 hk
      subst hk'
      simp only [hk, ↓reduceIte, Option.some.injEq, List.mem_cons, Prod.mk.injEq, true_and]
      refine ⟨fun h => .inl h.symm, fun h' => ?_⟩
      rcases h' with h' | h'
      · exact h'.symm
      · have := h.1 _ h'
        simp at this
    · have hne : k ≠ kx := fun e => hk (LawfulEqCmp.compare_eq_iff_eq.2 e)
      simp [hk, ih h.2, hne]

theorem get?_eq_some_iff [TransOrd κ] [LawfulEqOrd κ] (t : Table κ α) {k : κ} {a : α} :
    t.get? k = some a ↔ (k, a) ∈ t.entries :=
  lookup_eq_some_iff t.increasing

end Table

end MeshControl
