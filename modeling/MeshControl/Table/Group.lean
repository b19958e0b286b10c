import MeshControl.Table

/-!
# Grouping a list by a key

`Table.group` files the elements of a list under their keys. Within a group they keep the order
of the list.

## Main definitions

* `Table.group` — the groups.
* `Table.get?_group` — a group is a filter of the list, and is there unless it is empty.
-/

namespace MeshControl.Table

open Std

universe u v

variable {κ : Type u} {α : Type v} [Ord κ] [TransOrd κ] [LawfulEqOrd κ]

/-- Put an element in front of the group of its key. -/
def file (f : α → κ) (a : α) (t : Table κ (List α)) : Table κ (List α) :=
  t.insert (f a) (a :: (t.get? (f a)).getD [])

/-- The elements of a list by key. -/
def group (f : α → κ) (l : List α) : Table κ (List α) := l.foldr (file f) empty

/-- The elements of a list that have a key. -/
def having (f : α → κ) (k : κ) (l : List α) : List α := l.filter fun a => compare k (f a) == .eq

@[simp] theorem group_nil (f : α → κ) : group f [] = empty := rfl

@[simp] theorem group_cons (f : α → κ) (a : α) (l : List α) :
    group f (a :: l) = file f a (group f l) := rfl

omit [TransOrd κ] [LawfulEqOrd κ] in
theorem having_cons (f : α → κ) (k : κ) (a : α) (l : List α) :
    having f k (a :: l) = if compare k (f a) = .eq then a :: having f k l else having f k l := by
  by_cases h : compare k (f a) = .eq <;> simp [having, h]

theorem getD_get?_group (f : α → κ) (k : κ) (l : List α) :
    ((group f l).get? k).getD [] = having f k l := by
  induction l with
  | nil => rfl
  | cons a l ih =>
    rw [group_cons, file, get?_insert, having_cons]
    by_cases h : compare k (f a) = .eq
    · have hk : k = f a := LawfulEqCmp.compare_eq_iff_eq.1 h
      subst hk
      simp [ih]
    · simp [h, ih]

theorem get?_group (f : α → κ) (k : κ) (l : List α) :
    (group f l).get? k = if having f k l = [] then none else some (having f k l) := by
  induction l with
  | nil => rfl
  | cons a l ih =>
    rw [group_cons, file, get?_insert, having_cons]
    by_cases h : compare k (f a) = .eq
    · have hk : k = f a := LawfulEqCmp.compare_eq_iff_eq.1 h
      subst hk
      simp [getD_get?_group]
    · simp [h, ih]

theorem mem_entries_group {f : α → κ} {l : List α} {k : κ} {g : List α} :
    (k, g) ∈ (group f l).entries ↔ g = having f k l ∧ g ≠ [] := by
  rw [← get?_eq_some_iff, get?_group]
  by_cases h : having f k l = []
  · simp [h]
  · simp only [h, if_false, Option.some.injEq]
    exact ⟨fun e => ⟨e.symm, e ▸ h⟩, fun e => e.1.symm⟩

end MeshControl.Table
