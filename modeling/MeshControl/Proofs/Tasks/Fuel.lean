import MeshControl.Proofs.Tasks.Log

/-!
# Enough moves

Every move of a task, and every move of the clock to a time that a task waits for, takes something
from what the tasks can still do until a time. The bound on the moves is more than that, so the
clock reaches the time.

## Main definitions

* `Tasks.cost` — a bound on the moves until a time.
* `Tasks.cost_lt_of_turn`, `Tasks.cost_lt_of_wait` — every move takes from it.
* `Tasks.cost_lt_moveBound` — the fuel is more than enough.
-/

namespace MeshControl

open Scheduler

theorem Scheduler.Script.feedSize_cons (call : Delayed (Option Feed))
    (rest : List (Delayed (Option Feed)))
    (listings : List (Delayed (Option (List Instance)))) :
    (Script.mk (call :: rest) listings).feedSize =
      1 + (call.answer.getD []).length + (Script.mk rest listings).feedSize := by
  have shifted : ∀ (calls : List (Delayed (Option Feed))) (n : Nat),
      calls.foldl (fun n call => n + 1 + (call.answer.getD []).length) n =
        n + calls.foldl (fun n call => n + 1 + (call.answer.getD []).length) 0 := by
    intro calls
    induction calls with
    | nil => simp
    | cons call calls ih =>
      intro n
      rw [List.foldl_cons, List.foldl_cons, ih, ih (0 + 1 + _)]
      omega
  simp only [Script.feedSize, List.foldl_cons]
  rw [shifted]

namespace Tasks

variable {settings : Settings} {s t : State} {time : Nat}

/-! ## The reader -/

/-- Whether a time is still waited for. -/
def waiting (now : Nat) : Option Nat → Nat
  | some due => if now < due then 1 else 0
  | none => 0

/-- A bound on the moves of the reader and on those that apply what it posts. An answer and a
notice take five each, two of which are waits. -/
def readerCost (s : State) : Nat :=
  match s.reader with
  | .idle => 5 * s.script.feedSize + 1
  | .subscribing _ (some feed) => 5 * (s.script.feedSize + feed.length) + 2
  | .subscribing _ none => 5 * s.script.feedSize + 4
  | .subscribed feed => 5 * (s.script.feedSize + feed.length) + 1
  | .reading _ _ feed => 5 * (s.script.feedSize + feed.length) + 4
  | .forwarding _ feed => 5 * (s.script.feedSize + feed.length) + 3
  | .pausing _ (some feed) => 5 * (s.script.feedSize + feed.length) + 2
  | .pausing _ none => 5 * s.script.feedSize + 2
  | .stuck | .ended => 0

theorem readerCost_lt_of_read (h : read settings s = some t) :
    readerCost t + waiting t.now t.reader.due? + t.queue.length <
      readerCost s + waiting s.now s.reader.due? + s.queue.length := by
  obtain ⟨now, reader, fetcher, ⟨subscriptions, listings⟩, queue, reconciler, n, m⟩ := s
  cases reader with
  | idle =>
    cases subscriptions with
    | nil => grind [read, readerCost, waiting, Reader.due?]
    | cons call rest =>
      have size := Script.feedSize_cons call rest listings
      obtain ⟨delay, _ | feed⟩ := call <;> grind [read, readerCost, waiting, Reader.due?]
  | subscribed feed => cases feed <;> grind [read, readerCost, waiting, Reader.due?]
  | subscribing due answer => cases answer <;> grind [read, readerCost, waiting, Reader.due?]
  | reading due notice feed => cases notice <;> grind [read, readerCost, waiting, Reader.due?]
  | pausing due feed => cases feed <;> grind [read, readerCost, waiting, Reader.due?]
  | forwarding | stuck | ended => grind [read, readerCost, waiting, Reader.due?]

/-! ## The fetcher -/

/-- A bound on the rounds that begin until a time. The timer is never late by more than the
tolerance when it ticks again. -/
def roundsLeft (settings : Settings) (time now due : Nat) : Nat :=
  (time + settings.interval - max due (now - tolerance)) / settings.interval

theorem roundsLeft_nextTick (ticks : 0 < settings.interval) {now due : Nat} (ticked : due ≤ now)
    (reached : now ≤ time) :
    roundsLeft settings time now (nextTick settings now due) + 1 ≤
      roundsLeft settings time now due := by
  have step : ∀ n m, n + settings.interval ≤ m →
      n / settings.interval + 1 ≤ m / settings.interval := by
    intro n m le
    rw [← Nat.add_div_right n ticks]
    exact Nat.div_le_div_right le
  apply step
  unfold nextTick tolerance
  split_ifs <;> omega

theorem roundsLeft_le {now now' : Nat} (later : now ≤ now') (due : Nat) :
    roundsLeft settings time now' due ≤ roundsLeft settings time now due :=
  Nat.div_le_div_right (by omega)

theorem roundsLeft_bound (now due : Nat) (ticks : 0 < settings.interval) :
    roundsLeft settings time now due ≤ (time - now) / settings.interval + 6 := by
  have le : roundsLeft settings time now due ≤
      ((time - now) + 6 * settings.interval) / settings.interval :=
    Nat.div_le_div_right (by unfold tolerance; omega)
  rwa [Nat.add_mul_div_right _ _ ticks] at le

/-- A bound on the moves of the fetcher and on those that apply what it posts. A round takes
eight, two of which are waits. -/
def fetcherCost (settings : Settings) (time : Nat) (s : State) : Nat :=
  match s.fetcher with
  | .ticking due => 8 * roundsLeft settings time s.now due
  | .announcing next => 8 * roundsLeft settings time s.now next + 7
  | .fetching next _ _ => 8 * roundsLeft settings time s.now next + 4
  | .delivering next _ => 8 * roundsLeft settings time s.now next + 3
  | .stuck | .ended => 0

theorem fetcherCost_lt_of_fetch (ticks : 0 < settings.interval) (reached : s.now ≤ time)
    (h : fetch settings s = some t) :
    fetcherCost settings time t + waiting t.now t.fetcher.due? + t.queue.length <
      fetcherCost settings time s + waiting s.now s.fetcher.due? + s.queue.length := by
  obtain ⟨now, reader, fetcher, ⟨subscriptions, listings⟩, queue, reconciler, n, m⟩ := s
  cases fetcher with
  | ticking due =>
    have round : due ≤ now → now ≤ time → _ := roundsLeft_nextTick ticks
    grind [fetch, fetcherCost, waiting, Fetcher.due?]
  | announcing next => cases listings <;> grind [fetch, fetcherCost, waiting, Fetcher.due?]
  | fetching next due answer => cases answer <;> grind [fetch, fetcherCost, waiting, Fetcher.due?]
  | delivering | stuck | ended => grind [fetch, fetcherCost, waiting, Fetcher.due?]

/-! ## Both together -/

/-- A bound on the moves until a time. -/
def cost (settings : Settings) (time : Nat) (s : State) : Nat :=
  (readerCost s + waiting s.now s.reader.due?) +
    (fetcherCost settings time s + waiting s.now s.fetcher.due?) + s.queue.length

variable {script : Script} {ssh : UInt16} {log : Log}

theorem cost_lt_of_turn (h : Logged settings script ssh s log) (reached : s.now ≤ time)
    {task : Task} (moved : turn settings s task = some t) :
    cost settings time t < cost settings time s := by
  cases task with
  | reconciler =>
    obtain ⟨u, queue, next, rfl⟩ := consume_eq_some moved
    simp [cost, readerCost, fetcherCost, next]
  | reader =>
    obtain ⟨new, m⟩ := exists_readerMove h.waits moved
    have less := readerCost_lt_of_read moved
    have same : fetcherCost settings time t = fetcherCost settings time s := by
      rw [fetcherCost, fetcherCost, m.fetcher, m.now]
    rw [cost, cost, same, m.fetcher, m.now] at *
    omega
  | fetcher =>
    have ticks := h.ticks_of_fetch moved
    obtain ⟨new, m⟩ := exists_fetcherMove ticks h.awaits moved
    have less := fetcherCost_lt_of_fetch ticks reached moved
    have size : t.script.feedSize = s.script.feedSize := by
      rw [Script.feedSize, Script.feedSize, m.subscriptions]
    have same : readerCost t = readerCost s := by
      rw [readerCost, readerCost, m.reader, size]
    rw [cost, cost, same, m.reader, m.now] at *
    omega

/-! ## The clock -/

theorem waiting_le {now later : Nat} (h : now ≤ later) (due? : Option Nat) :
    waiting later due? ≤ waiting now due? := by
  cases due? <;> grind [waiting]

theorem waiting_lt {now due : Nat} (h : now < due) :
    waiting due (some due) < waiting now (some due) := by
  grind [waiting]

theorem fetcherCost_le {later : Nat} (h : s.now ≤ later) :
    fetcherCost settings time { s with now := later } ≤ fetcherCost settings time s := by
  have rounds : ∀ due, roundsLeft settings time later due ≤ roundsLeft settings time s.now due :=
    roundsLeft_le h
  obtain ⟨now, reader, fetcher, script, queue, reconciler, n, m⟩ := s
  cases fetcher <;> grind [fetcherCost]

/-- The clock moves to the earliest of the times that are waited for. -/
theorem due?_eq_some {due : Nat} (h : due? s = some due) :
    (s.reader.due? = some due ∨ s.fetcher.due? = some due) ∧
    (∀ d, s.reader.due? = some d → due ≤ d) ∧ ∀ d, s.fetcher.due? = some d → due ≤ d := by
  unfold due? at h
  cases hr : s.reader.due? <;> cases hf : s.fetcher.due? <;> grind

theorem due?_eq_none (h : due? s = none) : s.reader.due? = none ∧ s.fetcher.due? = none := by
  unfold due? at h
  cases hr : s.reader.due? <;> cases hf : s.fetcher.due? <;> grind

theorem Still.lt_due (h : Still s) {due : Nat}
    (waits : s.reader.due? = some due ∨ s.fetcher.due? = some due) : s.now < due := by
  have reader := h.reader
  have fetcher := h.fetcher
  grind [Rests, FetcherRests, Reader.due?, Fetcher.due?]

theorem cost_lt_of_wait (still : Still s) {due : Nat} (h : due? s = some due) :
    cost settings time { s with now := due } < cost settings time s := by
  obtain ⟨waits, -, -⟩ := due?_eq_some h
  have early := still.lt_due waits
  have reader := waiting_le early.le s.reader.due?
  have fetcher := waiting_le early.le s.fetcher.due?
  have rounds : fetcherCost settings time { s with now := due } ≤ fetcherCost settings time s :=
    fetcherCost_le early.le
  have same : readerCost { s with now := due } = readerCost s := rfl
  have less := waiting_lt early
  rw [cost, cost, same]
  rcases waits with waits | waits <;> rw [waits] at * <;> simp only at * <;> omega

/-! ## The bound -/

theorem waiting_le_one (now : Nat) (due? : Option Nat) : waiting now due? ≤ 1 := by
  cases due? <;> grind [waiting]

theorem fetcherCost_bound (ticks : 0 < settings.interval ∨ s.fetcher = .stuck) :
    fetcherCost settings time s ≤ 8 * ((time - s.now) / max settings.interval 1) + 55 := by
  rcases ticks with ticks | stuck
  · have rounds : ∀ due, roundsLeft settings time s.now due ≤
        (time - s.now) / settings.interval + 6 := fun due => roundsLeft_bound s.now due ticks
    rw [Nat.max_eq_left ticks]
    unfold fetcherCost
    split <;> grind
  · simp [fetcherCost, stuck]

/-- The fuel is more than the moves until a time. -/
theorem cost_lt_moveBound (ticks : 0 < settings.interval ∨ s.fetcher = .stuck) :
    cost settings time s < moveBound settings s time := by
  have rounds : fetcherCost settings time s ≤ _ := fetcherCost_bound ticks
  have reads := waiting_le_one s.now s.reader.due?
  have ticking := waiting_le_one s.now s.fetcher.due?
  unfold moveBound cost
  generalize (time - s.now) / max settings.interval 1 = ticks at *
  obtain ⟨now, reader, fetcher, script, queue, reconciler, n, m⟩ := s
  cases reader with
  | subscribing due answer => cases answer <;> simp only [readerCost] at * <;> omega
  | pausing due feed => cases feed <;> simp only [readerCost] at * <;> omega
  | _ =>
    simp only [readerCost] at *
    omega

end Tasks

end MeshControl
