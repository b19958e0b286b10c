/-!
# Finite sets in increasing order

A `SortedSet α` lists its elements once each, in increasing order, so that its listing is a
function of its members.

## Main definitions

* `SortedSet` — the listing together with its order.
* `SortedSet.insert`, `SortedSet.erase`, `SortedSet.ofList`.
-/

namespace MeshControl

open Std

universe u

variable {α : Type u} [Ord α]

/-- Finitely many elements in increasing order. -/
structure SortedSet (α : Type u) [Ord α] where
  toList : List α
  increasing : toList.Pairwise fun a b => compare a b = .lt

namespace SortedSet

/-! ## Element lists -/

/-- Put `a` into an increasing list, unless it is there. -/
def insertElement (a : α) : List α → List α
  | [] => [a]
  | b :: rest =>
    match compare a b with
    | .lt => a :: b :: rest
    | .eq => b :: rest
    | .gt => b :: insertElement a rest

theorem mem_insertElement [TransOrd α] [LawfulEqOrd α] {a b : α} {l : List α} :
    b ∈ insertElement a l ↔ b = a ∨ b ∈ l := by
  induction l with
  | nil => simp [insertElement]
  | cons x l ih =>
    simp only [insertElement]
    split
    · simp
    · rename_i hc
      have : a = x := LawfulEqCmp.compare_eq_iff_eq.1 hc
      subst this
      simp
    · simp only [List.mem_cons, ih]
      exact or_left_comm

theorem increasing_insertElement [TransOrd α] [LawfulEqOrd α] (a : α) {l : List α}
    (h : l.Pairwise fun a b => compare a b = .lt) :
    (insertElement a l).Pairwise fun a b => compare a b = .lt := by
  induction l with
  | nil => simp [insertElement]
  | cons x l ih =>
    rw [List.pairwise_cons] at h
    simp only [insertElement]
    split
    · rename_i hc
      refine List.pairwise_cons.2 ⟨fun e he => ?_, List.pairwise_cons.2 h⟩
      rcases List.mem_cons.1 he with rfl | he
      · exact hc
      · exact TransCmp.lt_trans hc (h.1 e he)
    · exact List.pairwise_cons.2 h
    · rename_i hc
      refine List.pairwise_cons.2 ⟨fun e he => ?_, ih h.2⟩
      rcases mem_insertElement.1 he with rfl | he
      · exact OrientedCmp.gt_iff_lt.1 hc
      · exact h.1 e he

/-! ## Operations -/

def empty : SortedSet α := ⟨[], .nil⟩

instance : EmptyCollection (SortedSet α) := ⟨empty⟩

instance : Inhabited (SortedSet α) := ⟨empty⟩

instance : Membership α (SortedSet α) := ⟨fun s a => a ∈ s.toList⟩

instance [DecidableEq α] : DecidableEq (SortedSet α) := fun s t =>
  decidable_of_iff (s.toList = t.toList) (by cases s; cases t; simp)

variable [TransOrd α] [LawfulEqOrd α]

def insert (s : SortedSet α) (a : α) : SortedSet α :=
  ⟨insertElement a s.toList, increasing_insertElement a s.increasing⟩

def insertAll (s : SortedSet α) (l : List α) : SortedSet α := l.foldl insert s

def ofList (l : List α) : SortedSet α := insertAll empty l

def erase (s : SortedSet α) (a : α) : SortedSet α :=
  ⟨s.toList.filter fun b => compare a b != .eq, s.increasing.filter _⟩

def isEmpty (s : SortedSet α) : Bool := s.toList.isEmpty

/-! ## Members -/

@[simp] theorem mem_insert {a b : α} {s : SortedSet α} : b ∈ s.insert a ↔ b = a ∨ b ∈ s :=
  mem_insertElement

theorem mem_insertAll {b : α} {l : List α} {s : SortedSet α} :
    b ∈ s.insertAll l ↔ b ∈ l ∨ b ∈ s := by
  induction l generalizing s with
  | nil => simp [insertAll]
  | cons a l ih =>
    rw [insertAll, List.foldl_cons, ← insertAll, ih, mem_insert, List.mem_cons]
    exact ⟨fun h => by rcases h with h | h | h <;> simp [h],
      fun h => by rcases h with (h | h) | h <;> simp [h]⟩

omit [TransOrd α] in
@[simp] theorem mem_erase {a b : α} {s : SortedSet α} : b ∈ s.erase a ↔ b ≠ a ∧ b ∈ s := by
  refine List.mem_filter.trans ⟨fun h => ⟨fun e => ?_, h.1⟩, fun h => ⟨h.2, ?_⟩⟩
  · rw [e] at h
    simpa using h.2
  · have : ¬ compare a b = .eq := fun e => h.1 (LawfulEqCmp.compare_eq_iff_eq.1 e).symm
    simpa using this

@[simp] theorem mem_ofList {b : α} {l : List α} : b ∈ ofList l ↔ b ∈ l := by
  rw [ofList, mem_insertAll]
  exact or_iff_left (List.not_mem_nil)

end SortedSet

end MeshControl
