import MeshControl.Publisher.Basic

/-!
# Ticks of a timer

A timer ticks at once and then in equal intervals.

## Main definitions

* `Timer` — the interval, and when the next tick is due.
* `Timer.ticksBefore`, `Timer.passTo` — the ticks before a time, and the timer after them.
-/

namespace MeshControl

/-- Times are in milliseconds. -/
structure Timer where
  interval : Nat
  due : Nat
  deriving DecidableEq, Inhabited

namespace Timer

def start (interval now : Nat) : Timer := ⟨interval, now⟩

/-- The number of ticks that are due before a time. A timer without an interval does not tick. -/
def ticksBefore (t : Timer) (time : Nat) : Nat :=
  if t.interval = 0 || time ≤ t.due then 0 else (time - t.due - 1) / t.interval + 1

def passTo (t : Timer) (time : Nat) : Timer :=
  { t with due := t.due + t.ticksBefore time * t.interval }

theorem le_due_passTo (t : Timer) (time : Nat) (h : 0 < t.interval) :
    time ≤ (t.passTo time).due := by
  simp only [passTo, ticksBefore]
  split
  · rename_i hc
    simp only [Bool.or_eq_true, decide_eq_true_eq] at hc
    omega
  · have := Nat.div_add_mod (time - t.due - 1) t.interval
    have := Nat.mod_lt (time - t.due - 1) h
    rw [Nat.add_mul, Nat.one_mul, Nat.mul_comm]
    omega

end Timer

end MeshControl
