import Mathlib.Data.List.Chain
import MeshControl.Proofs.Tasks.Fuel

/-!
# Schedules and orders

A schedule looks at nothing but the present state. That is enough for every order in which the
tasks can move, because each move takes something from what they can still do, and so no state comes
again.

## Main definitions

* `Tasks.Next` — what may come next, in any order.
* `Tasks.next?` — what comes next under a schedule.
* `Tasks.exists_schedule` — there is a schedule for every order.
* `Tasks.exists_runTo_eq` — a run can end wherever some order ends.
-/

namespace MeshControl.Tasks

open Scheduler

/-- What may come next: a move of any task that can move, or, where none can, the next time that is
waited for. -/
inductive Next (settings : Settings) : State → State → Prop where
  | turn {s t : State} (task : Task) : turn settings s task = some t → Next settings s t
  | wait {s : State} (due : Nat) : (∀ task, turn settings s task = none) → due? s = some due →
      Next settings s { s with now := due }

/-- What comes next under a schedule. -/
def next? (settings : Settings) (first : Schedule) (s : State) : Option State :=
  (move settings first s).or ((due? s).map fun due => { s with now := due })

variable {settings : Settings} {first first' : Schedule} {script : Script} {ssh : UInt16}
  {s t : State} {path : List State} {log : Log} {time : Nat}

theorem next?_congr (same : first s = first' s) :
    next? settings first s = next? settings first' s := by
  rw [next?, next?, move, move, same]

theorem next?_of_turn (h : turn settings s (first s) = some t) :
    next? settings first s = some t := by
  simp [next?, move, h]

theorem next?_of_wait {due : Nat} (rest : ∀ task, turn settings s task = none)
    (waits : due? s = some due) : next? settings first s = some { s with now := due } := by
  simp [next?, move_eq_none_iff.mpr rest, waits]

theorem still_of_turn_eq_none (h : ∀ task, turn settings s task = none) : Still s := by
  have rest : move settings (fun _ => .reconciler) s = none := move_eq_none_iff.mpr h
  exact still_of_move_eq_none rest

/-! ## One step -/

theorem Logged.next (h : Logged settings script ssh s log) (step : Next settings s t) :
    ∃ log', Logged settings script ssh t log' := by
  cases step with
  | turn task moved =>
    obtain ⟨new, m⟩ := h.turn moved
    exact ⟨_, m.logged⟩
  | wait due rest waits =>
    have still := still_of_turn_eq_none rest
    obtain ⟨earliest, reader, fetcher⟩ := due?_eq_some waits
    exact ⟨_, h.wait still (still.lt_due earliest).le reader fetcher⟩

theorem now_le_of_next (h : Logged settings script ssh s log) (step : Next settings s t) :
    s.now ≤ t.now := by
  cases step with
  | turn task moved =>
    obtain ⟨new, m⟩ := h.turn moved
    exact m.now.ge
  | wait due rest waits => exact ((still_of_turn_eq_none rest).lt_due (due?_eq_some waits).1).le

theorem cost_lt_of_next (h : Logged settings script ssh s log) (reached : s.now ≤ time)
    (step : Next settings s t) : cost settings time t < cost settings time s := by
  cases step with
  | turn task moved => exact cost_lt_of_turn h reached moved
  | wait due rest waits => exact cost_lt_of_wait (still_of_turn_eq_none rest) waits

/-! ## Steps in a row -/

theorem now_le_of_last (h : Logged settings script ssh s log)
    (chain : (s :: path).IsChain (Next settings)) (last : (s :: path).getLast? = some t) :
    ∀ u ∈ s :: path, u.now ≤ t.now := by
  induction path generalizing s log with
  | nil =>
    obtain rfl : s = t := by simpa using last
    simp
  | cons v path ih =>
    obtain ⟨step, rest⟩ := List.isChain_cons_cons.mp chain
    obtain ⟨log', h'⟩ := h.next step
    have later := ih h' rest (by simpa using last)
    rintro u (_ | ⟨_, hu⟩)
    · exact (now_le_of_next h step).trans (later v List.mem_cons_self)
    · exact later u hu

/-- Whatever the order, the states after a state cost less, and there are no more of them than it
costs. -/
theorem cost_lt_of_chain (h : Logged settings script ssh s log)
    (chain : (s :: path).IsChain (Next settings)) (reached : ∀ t ∈ s :: path, t.now ≤ time) :
    (∀ t ∈ path, cost settings time t < cost settings time s) ∧
      path.length ≤ cost settings time s := by
  induction path generalizing s log with
  | nil => simp
  | cons t path ih =>
    obtain ⟨step, rest⟩ := List.isChain_cons_cons.mp chain
    obtain ⟨log', h'⟩ := h.next step
    have less := cost_lt_of_next h (reached s List.mem_cons_self) step
    obtain ⟨others, length⟩ := ih h' rest fun u hu => reached u (List.mem_cons_of_mem s hu)
    refine ⟨?_, by rw [List.length_cons]; omega⟩
    rintro u (_ | ⟨_, hu⟩)
    · exact less
    · exact (others u hu).trans less

/-- In whatever order the tasks move, a schedule makes them move in this order. -/
theorem exists_schedule (h : Logged settings script ssh s log)
    (chain : (s :: path).IsChain (Next settings)) (reached : ∀ t ∈ s :: path, t.now ≤ time) :
    ∃ first, (s :: path).IsChain fun u t => next? settings first u = some t := by
  induction path generalizing s log with
  | nil => exact ⟨fun _ => .reconciler, .singleton s⟩
  | cons t path ih =>
    obtain ⟨step, rest⟩ := List.isChain_cons_cons.mp chain
    obtain ⟨log', h'⟩ := h.next step
    obtain ⟨first, follows⟩ := ih h' rest fun u hu => reached u (List.mem_cons_of_mem s hu)
    have fresh : ∀ u ∈ t :: path, u ≠ s := by
      rintro u hu rfl
      exact lt_irrefl _ ((cost_lt_of_chain h chain reached).1 u hu)
    cases step with
    | turn task moved =>
      -- The schedule is changed at `s` only, where it has not been looked at.
      refine ⟨Function.update first s task, .cons_cons ?_ (follows.imp_of_mem_imp ?_)⟩
      · exact next?_of_turn (by rwa [Function.update_self])
      · intro u v hu _ step
        rwa [next?_congr (Function.update_of_ne (fresh u hu) _ _)]
    | wait due still waits => exact ⟨first, .cons_cons (next?_of_wait still waits) follows⟩

/-! ## A whole run -/

/-- No task can move until the clock is past a time. -/
structure RestsUntil (settings : Settings) (time : Nat) (s : State) : Prop where
  rest : ∀ task, turn settings s task = none
  later : ∀ due, due? s = some due → time < due

theorem advance_of_chain (chain : (s :: path).IsChain fun u t => next? settings first u = some t)
    (reached : ∀ t ∈ s :: path, t.now ≤ time) (last : (s :: path).getLast? = some t)
    (rests : RestsUntil settings time t) {fuel : Nat} (enough : path.length < fuel) :
    advance settings first time fuel s = { t with now := time } := by
  induction path generalizing s fuel with
  | nil =>
    obtain ⟨fuel, rfl⟩ := Nat.exists_eq_add_one_of_ne_zero (Nat.ne_zero_of_lt enough)
    obtain rfl : s = t := by simpa using last
    rw [advance, move_eq_none_iff.mpr rests.rest]
    cases waits : due? s with
    | none => rfl
    | some due => simp [Nat.not_le.mpr (rests.later due waits)]
  | cons u path ih =>
    obtain ⟨fuel, rfl⟩ := Nat.exists_eq_add_one_of_ne_zero (Nat.ne_zero_of_lt enough)
    obtain ⟨step, others⟩ := List.isChain_cons_cons.mp chain
    have soon := reached u (by simp)
    have onward : advance settings first time (fuel + 1) s =
        advance settings first time fuel u := by
      rw [advance]
      cases moved : move settings first s <;> cases waits : due? s <;> grind [next?]
    rw [onward]
    exact ih others (fun v hv => reached v (List.mem_cons_of_mem s hv))
      (by simpa using last) (Nat.succ_lt_succ_iff.mp enough)

/-- Where the tasks come to rest in some order, a run under some schedule comes to rest. -/
theorem exists_runTo_eq (h : Logged settings script ssh s log)
    (chain : (s :: path).IsChain (Next settings)) (last : (s :: path).getLast? = some t)
    (reached : t.now ≤ time) (rests : RestsUntil settings time t) :
    ∃ first, runTo settings first time s = { t with now := time } := by
  have reached : ∀ u ∈ s :: path, u.now ≤ time := fun u hu =>
    (now_le_of_last h chain last u hu).trans reached
  obtain ⟨first, follows⟩ := exists_schedule h chain reached
  refine ⟨first, advance_of_chain follows reached last rests ?_⟩
  exact (cost_lt_of_chain h chain reached).2.trans_lt (cost_lt_moveBound h.ticks)

end MeshControl.Tasks
