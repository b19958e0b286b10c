import Mathlib.Data.List.Forall2

/-!
# Checks in a row

Checks that are made one after another succeed if every one of them does.

## Main statements

* `bind_eq_ok_iff`, `map_eq_ok_iff`, `mapError_eq_ok_iff` — a check and what is made of its outcome.
* `mapM_eq_ok_iff`, `forM_eq_ok_iff` — a check of every element.
-/

namespace MeshControl

variable {ε ε' α β : Type}

theorem bind_eq_ok_iff {x : Except ε α} {f : α → Except ε β} {b : β} :
    (x >>= f) = .ok b ↔ ∃ a, x = .ok a ∧ f a = .ok b := by
  cases x with
  | error e => simp [bind, Except.bind]
  | ok a => simp [bind, Except.bind]

theorem mapError_eq_ok_iff {x : Except ε α} {f : ε → ε'} {a : α} :
    x.mapError f = .ok a ↔ x = .ok a := by
  cases x <;> simp [Except.mapError]

theorem map_eq_ok_iff {x : Except ε α} {f : α → β} {b : β} :
    x.map f = .ok b ↔ ∃ a, x = .ok a ∧ f a = b := by
  cases x <;> simp [Except.map]

theorem mapM_eq_ok_iff {f : α → Except ε β} {l : List α} {l' : List β} :
    l.mapM f = .ok l' ↔ List.Forall₂ (fun a b => f a = .ok b) l l' := by
  induction l generalizing l' with
  | nil => simp [pure, Except.pure, eq_comm]
  | cons a l ih =>
    simp only [List.mapM_cons, bind_eq_ok_iff, ih, List.forall₂_cons_left_iff]
    constructor
    · rintro ⟨b, checked, rest, others, same⟩
      exact ⟨b, rest, checked, others, (Except.ok.inj same).symm⟩
    · rintro ⟨b, rest, checked, others, rfl⟩
      exact ⟨b, checked, rest, others, rfl⟩

/-- What comes out of a row of checks came out of one of them. -/
theorem exists_of_mem_mapM {f : α → Except ε β} {l : List α} {l' : List β} {b : β}
    (h : l.mapM f = .ok l') (hb : b ∈ l') : ∃ a ∈ l, f a = .ok b := by
  rw [mapM_eq_ok_iff] at h
  induction h with
  | nil => exact absurd hb List.not_mem_nil
  | @cons a b' l l' checked _ ih =>
    obtain rfl | hb := List.mem_cons.mp hb
    · exact ⟨a, List.mem_cons_self, checked⟩
    · obtain ⟨a', ha', checked'⟩ := ih hb
      exact ⟨a', List.mem_cons_of_mem _ ha', checked'⟩

theorem forM_eq_ok_iff {f : α → Except ε Unit} {l : List α} :
    l.forM f = .ok () ↔ ∀ a ∈ l, f a = .ok () := by
  induction l with
  | nil => simp [pure, Except.pure]
  | cons a l ih =>
    rw [List.forall_mem_cons, ← ih]
    refine bind_eq_ok_iff.trans ⟨?_, fun h => ⟨(), h⟩⟩
    rintro ⟨⟨⟩, checked, rest⟩
    exact ⟨checked, rest⟩

end MeshControl
