import MeshControl.Proofs.Tasks.Moves

/-!
# The log of the tasks

The log of what was done grows with the moves of the tasks. It accounts for what the reconciler has
applied and what is in the queue, and with what is left it makes up all that has to be done. When
the clock has reached a time and no task can move, the log has all that is to be done by then.

## Main definitions

* `Tasks.Rests`, `Tasks.Still` — the reader cannot move; no task can.
* `Tasks.Logged` — a state with the log of what was done.
* `Tasks.put` — what a move puts into the queue.
* `Tasks.Logged.turn`, `Tasks.Logged.wait` — a move of a task, and of the clock.
* `Tasks.Logged.completes` — the log at a time that the clock has reached.
-/

namespace MeshControl.Tasks

open Scheduler

/-! ## Resting -/

/-- The reader waits for a later time, or for ever. -/
def Rests (s : State) : Prop :=
  s.reader = .stuck ∨ s.reader = .ended ∨ ∃ due, s.reader.due? = some due ∧ s.now < due

/-- The fetcher waits for a later time, or for ever. -/
def FetcherRests (s : State) : Prop :=
  s.fetcher = .stuck ∨ s.fetcher = .ended ∨ ∃ due, s.fetcher.due? = some due ∧ s.now < due

/-- Everything is applied, and both tasks rest. -/
structure Still (s : State) : Prop where
  queue : s.queue = []
  reader : Rests s
  fetcher : FetcherRests s

variable {settings : Settings} {first : Schedule} {script : Script} {ssh : UInt16} {s t : State}
  {log : Log}

theorem hasRoom_of_queue_eq_nil (empty : s.queue = []) : hasRoom settings s := by
  simp [hasRoom, empty]

theorem rests_of_read_eq_none (empty : s.queue = []) (h : read settings s = none) : Rests s := by
  have room : hasRoom settings s := hasRoom_of_queue_eq_nil empty
  obtain ⟨now, reader, fetcher, script, queue, reconciler, subscribeCalls, listingCalls⟩ := s
  cases reader with
  | idle => obtain ⟨_ | _, _⟩ := script <;> cases h
  | subscribing due answer =>
    by_cases early : now < due
    · exact .inr (.inr ⟨due, rfl, early⟩)
    · cases answer <;> simp [read, early] at h
  | subscribed feed => cases feed <;> cases h
  | reading due notice feed =>
    by_cases early : now < due
    · exact .inr (.inr ⟨due, rfl, early⟩)
    · cases notice <;> simp [read, early] at h
  | forwarding e feed => simp [read, room] at h
  | pausing due feed =>
    by_cases early : now < due
    · exact .inr (.inr ⟨due, rfl, early⟩)
    · cases feed <;> simp [read, early] at h
  | stuck => exact .inl rfl
  | ended => exact .inr (.inl rfl)

theorem read_eq_none_of_rests (h : Rests s) : read settings s = none := by
  rcases h with stuck | ended | ⟨due, waits, early⟩
  · rw [read, stuck]
  · rw [read, ended]
  · cases moved : read settings s with
    | none => rfl
    | some t => exact absurd (due_le_of_read moved waits) (Nat.not_le.mpr early)

theorem fetcherRests_of_fetch_eq_none (empty : s.queue = []) (h : fetch settings s = none) :
    FetcherRests s := by
  have room : hasRoom settings s := hasRoom_of_queue_eq_nil empty
  obtain ⟨now, reader, fetcher, script, queue, reconciler, subscribeCalls, listingCalls⟩ := s
  cases fetcher with
  | ticking due =>
    by_cases early : now < due
    · exact .inr (.inr ⟨due, rfl, early⟩)
    · simp [fetch, early] at h
  | announcing next => obtain ⟨_, _ | _⟩ := script <;> simp [fetch, room] at h
  | fetching next due answer =>
    by_cases early : now < due
    · exact .inr (.inr ⟨due, rfl, early⟩)
    · cases answer <;> simp [fetch, early] at h
  | delivering next instances => simp [fetch, room] at h
  | stuck => exact .inl rfl
  | ended => exact .inr (.inl rfl)

theorem fetch_eq_none_of_rests (h : FetcherRests s) : fetch settings s = none := by
  obtain ⟨now, reader, fetcher, script, queue, reconciler, subscribeCalls, listingCalls⟩ := s
  rcases h with rfl | rfl | ⟨due, waits, early⟩
  · rfl
  · rfl
  · have early : now < due := early
    cases fetcher <;> cases waits <;> simp [fetch, early]

theorem exists_turn_of_move (h : move settings first s = some t) :
    ∃ task, turn settings s task = some t := by
  obtain ⟨task, -, moved⟩ := List.exists_of_findSome?_eq_some h
  exact ⟨task, moved⟩

theorem move_eq_none_iff :
    move settings first s = none ↔ ∀ task, turn settings s task = none := by
  rw [move, List.findSome?_eq_none_iff]
  refine ⟨fun h task => h task ?_, fun h task _ => h task⟩
  cases task <;> simp

theorem consume_eq_some (h : consume s = some t) : ∃ u queue, s.queue = u :: queue ∧
    t = { s with queue := queue, reconciler := s.reconciler.apply u } := by
  unfold consume at h
  cases queue : s.queue with
  | nil => simp [queue] at h
  | cons u rest => exact ⟨u, rest, rfl, by simpa [queue] using h.symm⟩

theorem consume_eq_none_iff : consume s = none ↔ s.queue = [] := by
  unfold consume
  cases s.queue <;> simp

/-- Where no task can move, the queue is empty, so that no task waits for room. -/
theorem still_of_move_eq_none (h : move settings first s = none) : Still s := by
  rw [move_eq_none_iff] at h
  have empty := consume_eq_none_iff.mp (h .reconciler)
  exact ⟨empty, rests_of_read_eq_none empty (h .reader),
    fetcherRests_of_fetch_eq_none empty (h .fetcher)⟩

theorem Still.move_eq_none (h : Still s) : move settings first s = none := by
  rw [move_eq_none_iff]
  rintro (_ | _ | _)
  · exact consume_eq_none_iff.mpr h.queue
  · exact read_eq_none_of_rests h.reader
  · exact fetch_eq_none_of_rests h.fetcher

/-- No task can move while the clock stays before every time that is waited for. -/
theorem Still.wait (h : Still s) {time : Nat}
    (reader : ∀ due, s.reader.due? = some due → time < due)
    (fetcher : ∀ due, s.fetcher.due? = some due → time < due) : Still { s with now := time } where
  queue := h.queue
  reader := h.reader.imp_right (Or.imp_right fun ⟨due, waits, _⟩ => ⟨due, waits, reader due waits⟩)
  fetcher :=
    h.fetcher.imp_right (Or.imp_right fun ⟨due, waits, _⟩ => ⟨due, waits, fetcher due waits⟩)

/-! ## The log of a state -/

/-- What was done before a state. -/
structure Logged (settings : Settings) (script : Script) (ssh : UInt16) (s : State) (log : Log) :
    Prop where
  reader : log.filter (·.2.byReader) ++ readerLeft settings s =
    readAll settings.retryDelay script.subscriptions 0
  fetcher : ∀ time, s.now ≤ time →
    log.filter (!·.2.byReader) ++ fetcherLeft settings time s =
      fetchAll settings time 0 0 script.listings
  ordered : log.Pairwise fun a b => a.1 ≤ b.1
  past : ∀ a ∈ log, a.1 ≤ s.now
  waits : ∀ due, s.reader.due? = some due → s.now ≤ due
  awaits : AwaitsAnswer s
  /-- What is not in the queue any more was applied. -/
  posted : ∃ applied, s.reconciler = (Reconciler.init ssh).applyAll applied ∧
    applied ++ s.queue = log.updates
  subscribeCalls : s.subscribeCalls = log.countP (·.2 = .subscribe)
  listingCalls : s.listingCalls = log.countP (·.2 = .post .listingStarted)
  /-- Without an interval there is no timer. -/
  ticks : 0 < settings.interval ∨ s.fetcher = .stuck

/-- Nothing was done before the first move. -/
theorem logged_start : Logged settings script ssh (start settings script ssh) [] := by
  constructor
  · simp [readerLeft, start]
  · intro time _
    by_cases ticks : settings.interval = 0
    · have none : fetchAll settings time 0 0 script.listings = [] := by
        rw [fetchAll, rounds_nil_of_not_ticks (by omega), List.flatMap_nil]
      simp [fetcherLeft, start, ticks, none]
    · simp [fetcherLeft, start, ticks]
  · exact .nil
  · simp
  · simp [start, Reader.due?]
  · intro next due answer
    by_cases ticks : settings.interval = 0 <;> simp [start, ticks]
  · exact ⟨[], rfl, rfl⟩
  · rfl
  · rfl
  · by_cases ticks : settings.interval = 0
    · exact .inr (by simp [start, ticks])
    · exact .inl (by omega)

/-! ## Moves -/

/-- The updates that a move puts into the queue, with the time. -/
def put (s t : State) : List (Nat × Update) := (t.queue.drop s.queue.length).map (s.now, ·)

theorem put_eq_posts {new : Log} (times : ∀ a ∈ new, a.1 = s.now)
    (queue : t.queue = s.queue ++ new.updates) : put s t = new.posts := by
  rw [put, queue, List.drop_left, Log.posts_eq_map times]

/-- A move, with what is done in it. -/
structure Logged.Move (settings : Settings) (script : Script) (ssh : UInt16) (s t : State)
    (log new : Log) : Prop where
  now : t.now = s.now
  times : ∀ a ∈ new, a.1 = s.now
  put : put s t = new.posts
  logged : Logged settings script ssh t (log ++ new)

theorem pairwise_append_of_times {new : Log} {now : Nat}
    (ordered : log.Pairwise fun a b => a.1 ≤ b.1) (past : ∀ a ∈ log, a.1 ≤ now)
    (times : ∀ a ∈ new, a.1 = now) : (log ++ new).Pairwise fun a b => a.1 ≤ b.1 := by
  refine List.pairwise_append.mpr ⟨ordered, ?_, fun a ha b hb => ?_⟩
  · exact List.pairwise_of_forall_mem_list fun a ha b hb =>
      ((times a ha).trans (times b hb).symm).le
  · exact (past a ha).trans_eq (times b hb).symm

theorem past_append {new : Log} (now : t.now = s.now) (past : ∀ a ∈ log, a.1 ≤ s.now)
    (times : ∀ a ∈ new, a.1 = s.now) : ∀ a ∈ log ++ new, a.1 ≤ t.now := by
  grind

theorem Logged.consume (h : Logged settings script ssh s log) {u : Update} {queue : List Update}
    (next : s.queue = u :: queue) : Logged settings script ssh
      { s with queue := queue, reconciler := s.reconciler.apply u } log := by
  obtain ⟨applied, made, all⟩ := h.posted
  refine { h with posted := ⟨applied ++ [u], ?_, ?_⟩ }
  · rw [Reconciler.applyAll_append, ← made]
    rfl
  · rw [← all, next, List.append_assoc]
    rfl

theorem fetcherLeft_congr (now : t.now = s.now) (fetcher : t.fetcher = s.fetcher)
    (listings : t.script.listings = s.script.listings) (time : Nat) :
    fetcherLeft settings time t = fetcherLeft settings time s := by
  rw [fetcherLeft, fetcherLeft, now, fetcher, listings]

theorem readerLeft_congr (now : t.now = s.now) (reader : t.reader = s.reader)
    (subscriptions : t.script.subscriptions = s.script.subscriptions) :
    readerLeft settings t = readerLeft settings s := by
  rw [readerLeft, readerLeft, now, reader, subscriptions]

theorem updates_posted {new : Log}
    (h : ∃ applied, s.reconciler = (Reconciler.init ssh).applyAll applied ∧
      applied ++ s.queue = log.updates)
    (reconciler : t.reconciler = s.reconciler) (queue : t.queue = s.queue ++ new.updates) :
    ∃ applied, t.reconciler = (Reconciler.init ssh).applyAll applied ∧
      applied ++ t.queue = (log ++ new).updates := by
  obtain ⟨applied, made, all⟩ := h
  refine ⟨applied, reconciler.trans made, ?_⟩
  rw [queue, ← List.append_assoc, all, Log.updates_append]

/-- A task does not do what the other one does. -/
theorem countP_eq_zero_of_byReader {new : Log} {act : Act}
    (other : ∀ a ∈ new, a.2.byReader ≠ act.byReader) : new.countP (·.2 = act) = 0 := by
  rw [List.countP_eq_zero]
  intro a ha same
  exact other a ha (congrArg Act.byReader (of_decide_eq_true same))

theorem Logged.read (h : Logged settings script ssh s log)
    (moved : Tasks.read settings s = some t) :
    ∃ new, Logged.Move settings script ssh s t log new := by
  obtain ⟨new, m⟩ := exists_readerMove h.waits moved
  have reads : new.filter (·.2.byReader) = new := List.filter_eq_self.mpr m.reads
  have fetches : new.filter (!·.2.byReader) = [] :=
    List.filter_eq_nil_iff.mpr fun a ha => by simp [m.reads a ha]
  refine ⟨new, m.now, m.times, put_eq_posts m.times m.queue, ?_, fun time reached => ?_,
    pairwise_append_of_times h.ordered h.past m.times, past_append m.now h.past m.times,
    fun due waits => m.now ▸ m.waits due waits, ?_,
    updates_posted h.posted m.reconciler m.queue, ?_, ?_, m.fetcher ▸ h.ticks⟩
  · rw [List.filter_append, reads, List.append_assoc, ← m.left, h.reader]
  · rw [List.filter_append, fetches, List.append_nil,
      fetcherLeft_congr m.now m.fetcher m.listings]
    exact h.fetcher time (m.now ▸ reached)
  · rw [AwaitsAnswer, m.fetcher, m.now]
    exact h.awaits
  · rw [m.subscribeCalls, h.subscribeCalls, List.countP_append]
  · have none : new.countP (·.2 = .post .listingStarted) = 0 :=
      countP_eq_zero_of_byReader fun a ha => by rw [m.reads a ha]; decide
    rw [m.listingCalls, h.listingCalls, List.countP_append, none, Nat.add_zero]

/-- A fetcher that moves has a timer. -/
theorem Logged.ticks_of_fetch (h : Logged settings script ssh s log)
    (moved : Tasks.fetch settings s = some t) : 0 < settings.interval := by
  rcases h.ticks with ticks | stuck
  · exact ticks
  · rw [Tasks.fetch, stuck] at moved
    cases moved

theorem Logged.fetch (h : Logged settings script ssh s log)
    (moved : Tasks.fetch settings s = some t) :
    ∃ new, Logged.Move settings script ssh s t log new := by
  have ticks := h.ticks_of_fetch moved
  obtain ⟨new, m⟩ := exists_fetcherMove ticks h.awaits moved
  have reads : new.filter (·.2.byReader) = [] :=
    List.filter_eq_nil_iff.mpr fun a ha => by simp [m.fetches a ha]
  have fetches : new.filter (!·.2.byReader) = new :=
    List.filter_eq_self.mpr fun a ha => by simp [m.fetches a ha]
  refine ⟨new, m.now, m.times, put_eq_posts m.times m.queue, ?_, fun time reached => ?_,
    pairwise_append_of_times h.ordered h.past m.times, past_append m.now h.past m.times, ?_,
    m.awaits, updates_posted h.posted m.reconciler m.queue, ?_, ?_, .inl ticks⟩
  · rw [List.filter_append, reads, List.append_nil,
      readerLeft_congr m.now m.reader m.subscriptions]
    exact h.reader
  · rw [m.now] at reached
    rw [List.filter_append, fetches, List.append_assoc, ← m.left time reached,
      h.fetcher time reached]
  · rw [m.reader, m.now]
    exact h.waits
  · have none : new.countP (·.2 = .subscribe) = 0 :=
      countP_eq_zero_of_byReader fun a ha => by rw [m.fetches a ha]; decide
    rw [m.subscribeCalls, h.subscribeCalls, List.countP_append, none, Nat.add_zero]
  · rw [m.listingCalls, h.listingCalls, List.countP_append]

/-- Whichever task moves, what was done before the move was done before the state after it. -/
theorem Logged.turn (h : Logged settings script ssh s log) {task : Task}
    (moved : Tasks.turn settings s task = some t) :
    ∃ new, Logged.Move settings script ssh s t log new := by
  cases task with
  | reconciler =>
    obtain ⟨u, queue, next, rfl⟩ := consume_eq_some moved
    exact ⟨[], rfl, by simp, by simp [Tasks.put, next, Log.posts], by simpa using h.consume next⟩
  | reader => exact h.read moved
  | fetcher => exact h.fetch moved

/-! ## The clock -/

theorem readerLeft_wait (rests : Rests s) (time : Nat) :
    readerLeft settings { s with now := time } = readerLeft settings s := by
  obtain ⟨now, reader, fetcher, script, queue, reconciler, subscribeCalls, listingCalls⟩ := s
  rcases rests with rfl | rfl | ⟨due, waits, -⟩
  · rfl
  · rfl
  · cases reader with
    | subscribing due answer => cases answer <;> rfl
    | reading due notice feed => rfl
    | pausing due feed => cases feed <;> rfl
    | idle | subscribed | forwarding | stuck | ended => cases waits

theorem fetcherLeft_wait (rests : FetcherRests s) {now : Nat}
    (h : ∀ due, s.fetcher.due? = some due → now ≤ due) (time : Nat) :
    fetcherLeft settings time { s with now := now } = fetcherLeft settings time s := by
  obtain ⟨earlier, reader, fetcher, script, queue, reconciler, subscribeCalls, listingCalls⟩ := s
  rcases rests with rfl | rfl | ⟨due, waits, early⟩
  · rfl
  · rfl
  · have later := h due waits
    cases fetcher with
    | ticking due =>
      obtain rfl := Option.some.inj waits
      exact fetchAll_congr ((Nat.max_eq_left later).trans (Nat.max_eq_left early.le).symm) _
    | fetching next due answer => rfl
    | announcing | delivering | stuck | ended => cases waits

/-- The clock moves no further than to the next time that a task waits for. -/
theorem Logged.wait (h : Logged settings script ssh s log) (still : Still s) {time : Nat}
    (later : s.now ≤ time) (reader : ∀ due, s.reader.due? = some due → time ≤ due)
    (fetcher : ∀ due, s.fetcher.due? = some due → time ≤ due) :
    Logged settings script ssh { s with now := time } log := by
  refine { h with reader := ?_, fetcher := ?_, past := ?_, waits := reader, awaits := ?_ }
  · rw [readerLeft_wait still.reader]
    exact h.reader
  · intro until' reached
    rw [fetcherLeft_wait still.fetcher fetcher]
    exact h.fetcher until' (later.trans reached)
  · exact fun a ha => (h.past a ha).trans later
  · intro next due answer waits
    exact fetcher due (by rw [show s.fetcher = _ from waits]; rfl)

/-! ## Times that the clock has reached -/

theorem lt_of_mem_readerLeft (rests : Rests s) : ∀ a ∈ readerLeft settings s, s.now < a.1 := by
  obtain ⟨now, reader, fetcher, script, queue, reconciler, subscribeCalls, listingCalls⟩ := s
  have again : ∀ t, ∀ a ∈ readAll settings.retryDelay script.subscriptions t, t ≤ a.1 :=
    fun t => le_of_mem_readAll
  rcases rests with rfl | rfl | ⟨due, waits, early⟩
  · simp [readerLeft]
  · simp [readerLeft]
  · suffices later : ∀ a ∈ readerLeft settings
        ⟨now, reader, fetcher, script, queue, reconciler, subscribeCalls, listingCalls⟩,
        due ≤ a.1 from fun a ha => early.trans_le (later a ha)
    cases reader with
    | subscribing due answer =>
      obtain rfl := Option.some.inj waits
      cases answer with
      | some feed => exact le_of_mem_readFeed again
      | none => exact fun a ha => (Nat.le_add_right _ _).trans (again _ a ha)
    | reading due notice feed =>
      obtain rfl := Option.some.inj waits
      exact le_of_mem_readFeed again
    | pausing due feed =>
      obtain rfl := Option.some.inj waits
      cases feed with
      | some feed => exact le_of_mem_readFeed again
      | none => exact again _
    | idle | subscribed | forwarding | stuck | ended => cases waits

theorem lt_of_mem_fetcherLeft (rests : FetcherRests s) :
    ∀ a ∈ fetcherLeft settings s.now s, s.now < a.1 := by
  obtain ⟨now, reader, fetcher, script, queue, reconciler, subscribeCalls, listingCalls⟩ := s
  rcases rests with rfl | rfl | ⟨due, waits, early⟩
  · simp [fetcherLeft]
  · simp [fetcherLeft]
  · cases fetcher with
    | ticking due =>
      obtain rfl := Option.some.inj waits
      simp [fetcherLeft, fetchAll, rounds_nil_of_lt (lt_max_of_lt_left early)]
    | fetching next due answer =>
      obtain rfl := Option.some.inj waits
      have early : now < due := early
      cases answer <;>
        simp [fetcherLeft, delivery, fetchAll, rounds_nil_of_lt (lt_max_of_lt_right early), early]
    | announcing | delivering | stuck | ended => cases waits

/-- What was done and what is left, until a time that the clock has reached. -/
theorem filter_eq_until {left all : Log} {time : Nat} {p : Nat × Act → Bool}
    (together : log.filter p ++ left = all) (past : ∀ a ∈ log, a.1 ≤ time)
    (later : ∀ a ∈ left, time < a.1) : log.filter p = all.until time := by
  have done : (log.filter p).filter (·.1 ≤ time) = log.filter p :=
    List.filter_eq_self.mpr fun a ha => decide_eq_true (past a (List.mem_filter.mp ha).1)
  have undone : left.filter (·.1 ≤ time) = [] :=
    List.filter_eq_nil_iff.mpr fun a ha => by simp [later a ha]
  rw [← together, Log.until, List.filter_append, done, undone, List.append_nil]

/-- When no task can move, everything that has to be done by then was done. -/
theorem Logged.completes (h : Logged settings script ssh s log) (still : Still s) :
    Completes settings script s.now log where
  ordered := h.ordered
  reader := filter_eq_until h.reader h.past (lt_of_mem_readerLeft still.reader)
  fetcher := filter_eq_until (h.fetcher s.now (Nat.le_refl _)) h.past
    (lt_of_mem_fetcherLeft still.fetcher)

end MeshControl.Tasks
