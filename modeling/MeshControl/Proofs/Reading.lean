import Mathlib.Data.List.Basic

/-!
# Readings that are interrupted

A reader looks at a state several times, and what it looks at next depends on what it has seen. It
has the state for itself during a look, but not between two looks, where others may change it. So
every look sees a state of its own.

## Main definitions

* `Reading` — the looks of a reader, and what it makes of them.
* `Reading.run` — its result if every look sees the state of its moment.
* `Reading.now` — its result if nothing changes in the meantime.
* `Reading.exists_of_mem_run_mapM` — whatever a row of readings gives, one of them gave at a moment.
-/

namespace MeshControl

/-- What a reader does: it is done, or it looks at the state and goes on with what it has seen. -/
inductive Reading (σ α : Type) where
  | done (a : α)
  | look (next : σ → Reading σ α)

namespace Reading

variable {σ α β : Type}

def bind : Reading σ α → (α → Reading σ β) → Reading σ β
  | done a, f => f a
  | look next, f => look fun s => (next s).bind f

instance : Monad (Reading σ) where
  pure := done
  bind := bind

/-- Look at a part of the state. -/
def ask (part : σ → α) : Reading σ α := look fun s => done (part s)

/-- What a reading that begins at a moment gives, and the moment after its last look. -/
def run (states : Nat → σ) : Reading σ α → Nat → α × Nat
  | done a, n => (a, n)
  | look next, n => (next (states n)).run states (n + 1)

/-- What a reading of a state gives that nobody changes. -/
def now (s : σ) : Reading σ α → α
  | done a => a
  | look next => (next s).now s

@[simp] theorem pure_eq (a : α) : (pure a : Reading σ α) = done a := rfl

instance : LawfulMonad (Reading σ) :=
  LawfulMonad.mk' _
    (fun x => by
      induction x with
      | done a => rfl
      | look next ih => exact congrArg look (funext ih))
    (fun _ _ => rfl)
    (fun x f g => by
      induction x with
      | done a => rfl
      | look next ih => exact congrArg look (funext ih))

/-! ## Readings in a row -/

section Run

variable {states : Nat → σ}

@[simp] theorem run_done (a : α) (n : Nat) : (done a : Reading σ α).run states n = (a, n) := rfl

@[simp] theorem run_ask (part : σ → α) (n : Nat) :
    (ask part).run states n = (part (states n), n + 1) := rfl

@[simp] theorem run_bind (x : Reading σ α) (f : α → Reading σ β) (n : Nat) :
    (x >>= f).run states n = (f (x.run states n).1).run states (x.run states n).2 := by
  induction x generalizing n with
  | done a => rfl
  | look next ih => exact ih (states n) (n + 1)

theorem le_run (x : Reading σ α) (n : Nat) : n ≤ (x.run states n).2 := by
  induction x generalizing n with
  | done a => exact Nat.le_refl n
  | look next ih => exact Nat.le_trans (Nat.le_succ n) (ih (states n) (n + 1))

/-- What is among the results of readings in a row, one of them gave when its turn came. -/
theorem exists_of_mem_run_mapM {f : α → Reading σ β} {l : List α} {n : Nat} {b : β}
    (h : b ∈ ((l.mapM f).run states n).1) :
    ∃ a ∈ l, ∃ k, n ≤ k ∧ ((f a).run states k).1 = b := by
  induction l generalizing n with
  | nil => simp at h
  | cons a l ih =>
    simp only [List.mapM_cons, run_bind, pure_eq, run_done, List.mem_cons] at h
    obtain rfl | h := h
    · exact ⟨a, List.mem_cons_self, n, Nat.le_refl n, rfl⟩
    · obtain ⟨a', ha', k, later, gives⟩ := ih h
      exact ⟨a', List.mem_cons_of_mem a ha', k, Nat.le_trans (le_run (f a) n) later, gives⟩

end Run

/-! ## Without interruption -/

section Now

variable {s : σ}

@[simp] theorem now_done (a : α) : (done a : Reading σ α).now s = a := rfl

@[simp] theorem now_ask (part : σ → α) : (ask part).now s = part s := rfl

@[simp] theorem now_bind (x : Reading σ α) (f : α → Reading σ β) :
    (x >>= f).now s = (f (x.now s)).now s := by
  induction x with
  | done a => rfl
  | look next ih => exact ih s

@[simp] theorem now_mapM (f : α → Reading σ β) (l : List α) :
    (l.mapM f).now s = l.map fun a => (f a).now s := by
  induction l with
  | nil => rfl
  | cons a l ih => simp [ih]

/-- A state that stays the same is read as if nothing came in between. -/
theorem run_const (x : Reading σ α) (n : Nat) : (x.run (fun _ => s) n).1 = x.now s := by
  induction x generalizing n with
  | done a => rfl
  | look next ih => exact ih s (n + 1)

end Now

end Reading

end MeshControl
