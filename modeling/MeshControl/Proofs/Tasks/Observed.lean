import MeshControl.Proofs.Tasks.Fuel

/-!
# What is seen of the tasks

Whatever the scheduler answers, in whatever order the tasks move and whenever they are looked at,
what they put into the queue and what is seen of them is what the timeline says, but for the order
of what they do at one time. It does not matter how many updates the queue holds, as long as it can
be made.

## Main definitions

* `Tasks.putUntil`, `Tasks.enqueued` — what is put into the queue until a time, and until one time
  after another.
* `Tasks.Records` — a log that accounts for a whole run.
* `Tasks.Logged.advance`, `Tasks.Logged.observe` — the clock reaches a time, and one time after
  another.
* `Tasks.watch_faithful` — what is put into the queue and seen, and how it depends on the script.
-/

namespace MeshControl.Tasks

open Scheduler

variable {settings : Settings} {first : Schedule} {script : Script} {ssh : UInt16} {s t : State}
  {log : Log} {time : Nat}

/-! ## One time -/

/-- What the moves of `advance` put into the queue. -/
def putUntil (settings : Settings) (first : Schedule) (time : Nat) :
    (fuel : Nat) → State → List (Nat × Update)
  | 0, _ => []
  | fuel + 1, s =>
    match move settings first s with
    | some t => put s t ++ putUntil settings first time fuel t
    | none =>
      match due? s with
      | some due =>
        if due ≤ time then putUntil settings first time fuel { s with now := due } else []
      | none => []

/-- The state at a time that the clock has reached, in which no task can move, and what was put
into the queue on the way. -/
structure Reached (settings : Settings) (script : Script) (ssh : UInt16) (s t : State)
    (put : List (Nat × Update)) (log : Log) (time : Nat) (new : Log) : Prop where
  now : t.now = time
  still : Still t
  put : put = new.posts
  logged : Logged settings script ssh t (log ++ new)
  /-- Nothing is done late. -/
  later : ∀ a ∈ new, s.now ≤ a.1
  afterwards : Still s → ∀ a ∈ new, s.now < a.1

theorem Logged.advance (h : Logged settings script ssh s log) (first : Schedule)
    (reached : s.now ≤ time) {fuel : Nat} (enough : cost settings time s < fuel) :
    ∃ new, Reached settings script ssh s (advance settings first time fuel s)
      (putUntil settings first time fuel s) log time new := by
  induction fuel generalizing s log with
  | zero => omega
  | succ fuel ih =>
    unfold Tasks.advance putUntil
    cases moved : Tasks.move settings first s with
    | some t =>
      obtain ⟨task, turned⟩ := exists_turn_of_move moved
      obtain ⟨done, m⟩ := h.turn turned
      have less := cost_lt_of_turn h reached turned
      obtain ⟨new, rest⟩ := ih m.logged (m.now ▸ reached) (by omega)
      refine ⟨done ++ new, rest.now, rest.still, ?_, List.append_assoc .. ▸ rest.logged, ?_, ?_⟩
      · simp only [m.put, rest.put, Log.posts_append]
      · intro a ha
        rcases List.mem_append.mp ha with first | others
        · exact (m.times a first).ge
        · exact m.now ▸ rest.later a others
      · intro still
        rw [still.move_eq_none] at moved
        cases moved
    | none =>
      have still := still_of_move_eq_none moved
      cases waits : due? s with
      | none =>
        obtain ⟨reader, fetcher⟩ := due?_eq_none waits
        refine ⟨[], rfl, ?_, rfl, ?_, by simp, by simp⟩
        · exact still.wait (by simp [reader]) (by simp [fetcher])
        · rw [List.append_nil]
          exact h.wait still reached (by simp [reader]) (by simp [fetcher])
      | some due =>
        obtain ⟨earliest, reader, fetcher⟩ := due?_eq_some waits
        by_cases soon : due ≤ time
        · simp only [soon, if_true]
          have early := still.lt_due earliest
          have less : cost settings time { s with now := due } < cost settings time s :=
            cost_lt_of_wait still waits
          obtain ⟨new, rest⟩ := ih (h.wait still early.le reader fetcher) soon (by omega)
          exact ⟨new, rest.now, rest.still, rest.put, rest.logged,
            fun a ha => early.le.trans (rest.later a ha),
            fun _ a ha => early.trans_le (rest.later a ha)⟩
        · simp only [soon, if_false]
          have beyond : ∀ d, due ≤ d → time < d := fun d le => by omega
          refine ⟨[], rfl, ?_, rfl, ?_, by simp, by simp⟩
          · exact still.wait (fun d hd => beyond d (reader d hd))
              fun d hd => beyond d (fetcher d hd)
          · rw [List.append_nil]
            exact h.wait still reached (fun d hd => (beyond d (reader d hd)).le)
              fun d hd => (beyond d (fetcher d hd)).le

theorem Logged.runTo (h : Logged settings script ssh s log) (first : Schedule)
    (reached : s.now ≤ time) :
    ∃ new, Reached settings script ssh s (runTo settings first time s)
      (putUntil settings first time (moveBound settings s time) s) log time new :=
  h.advance first reached (cost_lt_moveBound h.ticks)

/-- What is seen at a time that the clock has reached is what the log says. -/
theorem Logged.observation (h : Logged settings script ssh s log) (still : Still s) :
    (⟨s.now, s.subscribeCalls, s.listingCalls, s.reconciler.list⟩ : Observation) =
      seen ssh s.now log := by
  obtain ⟨applied, made, all⟩ := h.posted
  rw [still.queue, List.append_nil] at all
  rw [seen, h.subscribeCalls, h.listingCalls, made, all]

/-! ## One time after another -/

/-- What is put into the queue until each of several times, with what was put there before. -/
def enqueued (settings : Settings) (first : Schedule) (before : List (Nat × Update)) :
    State → List Nat → List (List (Nat × Update))
  | _, [] => []
  | s, time :: times =>
    let all := before ++ putUntil settings first time (moveBound settings s time) s
    all :: enqueued settings first all (runTo settings first time s) times

/-- A log that accounts for what is put into the queue and seen at every one of several times. -/
structure Records (settings : Settings) (first : Schedule) (script : Script) (ssh : UInt16)
    (s : State) (before : Log) (times : List Nat) (log : Log) : Prop where
  ordered : log.Pairwise fun a b => a.1 ≤ b.1
  completes : ∀ time ∈ times, Completes settings script time (log.until time)
  enqueued : enqueued settings first before.posts s times =
    times.map fun time => (log.until time).posts
  observed : observe settings first s times = times.map fun time => seen ssh time (log.until time)

theorem Logged.observe (h : Logged settings script ssh s log) (first : Schedule) {times : List Nat}
    (increasing : times.Pairwise (· ≤ ·)) (reached : ∀ time ∈ times, s.now ≤ time) :
    ∃ new, Records settings first script ssh s log times (log ++ new) ∧
      (Still s → ∀ a ∈ new, s.now < a.1) := by
  induction times generalizing s log with
  | nil => exact ⟨[], ⟨by simpa using h.ordered, by simp, rfl, rfl⟩, by simp⟩
  | cons time times ih =>
    obtain ⟨earliest, others⟩ := List.pairwise_cons.mp increasing
    obtain ⟨new, next⟩ := h.runTo first (reached time List.mem_cons_self)
    have later : ∀ t ∈ times, (Tasks.runTo settings first time s).now ≤ t := by
      intro t ht
      rw [next.now]
      exact earliest t ht
    obtain ⟨more, rest, afterwards⟩ := ih next.logged others later
    have complete := next.logged.completes next.still
    have here := next.logged.observation next.still
    have afterwards := afterwards next.still
    rw [next.now] at complete here afterwards
    -- What is done by this time is what the log has of it in the end.
    have done : Log.until (log ++ new ++ more) time = log ++ new := by
      have past : ∀ a ∈ log ++ new, a.1 ≤ time := next.now ▸ next.logged.past
      rw [Log.until, List.filter_append, List.filter_eq_self.mpr, List.filter_eq_nil_iff.mpr,
        List.append_nil]
      · exact fun a ha => by simpa using afterwards a ha
      · exact fun a ha => decide_eq_true (past a ha)
    refine ⟨new ++ more, ?_, ?_⟩
    · rw [← List.append_assoc]
      refine ⟨rest.ordered, ?_, ?_, ?_⟩
      · rintro t (_ | ⟨_, ht⟩)
        · rwa [done]
        · exact rest.completes t ht
      · rw [Tasks.enqueued, List.map_cons, next.put, ← Log.posts_append, done, rest.enqueued]
      · rw [Tasks.observe, List.map_cons, done, ← here, rest.observed]
    · intro still a ha
      rcases List.mem_append.mp ha with soon | others
      · exact next.afterwards still a soon
      · exact (reached time List.mem_cons_self).trans_lt (afterwards a others)

/-! ## From the beginning -/

theorem completes_timeline (settings : Settings) (script : Script) (time : Nat) :
    Completes settings script time (timeline settings script time) := by
  have initial : Logged settings script 0 (start settings script 0) [] := logged_start
  obtain ⟨log, reached⟩ := initial.runTo (fun _ => .reconciler) (Nat.zero_le time)
  have complete := reached.logged.completes reached.still
  rw [reached.now] at complete
  exact complete.merged

/-- Whatever a scheduler answers and in whatever order the tasks move, there is one log that
accounts for what is put into the queue and what is seen at increasing times, however many updates
the queue holds. At each of these times the log has all acts of both tasks until then, in the order
of their times. Unless an event comes at a time of the fetcher, there is one order only, which is
that of the timeline.

The reader posts all events of its subscriptions, each once and in order. Every round begins when
the call of the one before it is answered, and meets the next answer.

A listing that does not come leaves the sets as if it had never been asked for, and while nothing
comes of any call the sets stay. -/
theorem watch_faithful (possible : settings.capacity ≤ maxCapacity) (first : Schedule)
    (script : Script) (ssh : UInt16) {times : List Nat} (increasing : times.Pairwise (· ≤ ·)) :
    (∃ log : Log,
      (∀ time ∈ times, Completes settings script time (log.until time)) ∧
      enqueued settings first [] (start settings script ssh) times =
        times.map (fun time => (log.until time).posts) ∧
      watch settings first script ssh times =
        times.map (fun time => seen ssh time (log.until time)) ∧
      ∀ time later, time ≤ later → Log.Quiet ((log.until later).filter (time < ·.1)) →
        (seen ssh later (log.until later)).sets = (seen ssh time (log.until time)).sets) ∧
    ((∀ time ∈ times, OrderFree settings script ssh time) →
      watch settings first script ssh times = times.map (expected settings script ssh)) ∧
    ((∀ time ∈ times, (timeline settings script time).Untied) →
      (∀ time ∈ times, OrderFree settings script ssh time) ∧
      enqueued settings first [] (start settings script ssh) times =
        times.map (fun time => (timeline settings script time).posts)) ∧
    (∀ capacity time, expected { settings with capacity := capacity } script ssh time =
      expected settings script ssh time) ∧
    (readAll settings.retryDelay script.subscriptions 0).updates =
      (yielded script.subscriptions).map .event ∧
    ∀ time,
      Completes settings script time (timeline settings script time) ∧
      (let called := rounds settings time 0 0 script.listings
      called.IsChain (fun r r' => ∃ answered, r.AnsweredAt answered ∧ answered ≤ r'.start) ∧
        ∀ i r, called[i]? = some r →
          r.answer = script.listings[min i (script.listings.length - 1)]?) ∧
      ∀ log : Log, (seen ssh time log).sets =
        ((Reconciler.init ssh).applyAll (withoutFailures log.updates)).list := by
  have initial : Logged settings script ssh (start settings script ssh) [] := logged_start
  obtain ⟨log, records, -⟩ := initial.observe first increasing fun _ _ => Nat.zero_le _
  have watched : watch settings first script ssh times =
      observe settings first (start settings script ssh) times := if_pos possible
  rw [List.nil_append] at records
  refine ⟨⟨log, records.completes, records.enqueued, watched.trans records.observed,
      fun time later le quiet => sets_seen_of_quiet records.ordered le quiet ssh⟩,
    fun free => ?_, fun untied => ⟨fun time ht => ?_, ?_⟩,
    fun capacity time => expected_congr (by rfl) (by rfl) ssh time, updates_readAll _ _ _,
    fun time => ⟨completes_timeline settings script time,
      ⟨isChain_rounds .., answer_of_getElem?_rounds _ _ _ _ _⟩,
      fun log => (list_applyAll_withoutFailures _ _).symm⟩⟩
  · rw [watched, records.observed]
    exact List.map_congr_left fun time ht => (records.completes time ht).seen_eq (free time ht)
  · exact (completes_timeline settings script time).orderFree (untied time ht) ssh
  · refine records.enqueued.trans (List.map_congr_left fun time ht => ?_)
    exact ((completes_timeline settings script time).posts_eq (records.completes time ht)
      (untied time ht)).symm

/-- One subscription fails, the next one meets a fault and ends, and no listing comes after the
first. The reader goes first and the queue holds a single update, so that the second of two notices
at one time waits for room. -/
theorem watch_faithful_unsteady :
    let i : Instance := ⟨"web-1", 0, .running, false, "10.0.0.1", none, [⟨8080, 9001⟩]⟩
    let j : Instance := ⟨"web-2", 0, .running, false, "10.0.0.2", none, [⟨8080, 9002⟩]⟩
    let settings : Settings := ⟨100, 20, 1⟩
    let first : Schedule := fun _ => .reader
    let feed : Feed :=
      [⟨10, .event (.created i)⟩, ⟨0, .event (.created j)⟩, ⟨10, .fault⟩, ⟨10, .finish⟩]
    let script : Script := ⟨[⟨5, none⟩, ⟨5, some feed⟩], [⟨30, some [i]⟩, ⟨30, none⟩]⟩
    let held := advance settings first 300 20 (start settings script 2222)
    let sets :=
      [("web-1", BackendSet.ofList [⟨"10.0.0.1", 9001, 8080⟩], BackendSet.ofList []),
        ("web-2", BackendSet.ofList [⟨"10.0.0.2", 9002, 8080⟩], BackendSet.ofList [])]
    settings.capacity ≤ maxCapacity ∧ [45, 300].Pairwise (· ≤ ·) ∧
      (∀ time ∈ [45, 300], (timeline settings script time).Untied) ∧
      (held.reader = .forwarding (.created j) (feed.drop 2) ∧ held.queue = [.event (.created i)] ∧
        read settings held = none) ∧
      watch settings first script 2222 [45, 300] = [45, 300].map (expected settings script 2222) ∧
      [45, 300].map (expected settings script 2222) = [⟨45, 2, 1, sets⟩, ⟨300, 3, 4, sets⟩] := by
  intro i j settings first feed script held sets
  have possible : settings.capacity ≤ maxCapacity := by decide
  have increasing : [45, 300].Pairwise (· ≤ ·) := by decide
  have untied : ∀ time ∈ [45, 300], (timeline settings script time).Untied := by decide_cbv
  obtain ⟨-, faithful, free, -⟩ := watch_faithful possible first script 2222 increasing
  have watched := faithful (free untied).1
  have seen : watch settings first script 2222 [45, 300] =
      [⟨45, 2, 1, sets⟩, ⟨300, 3, 4, sets⟩] := by decide +kernel
  exact ⟨possible, increasing, untied, by decide +kernel, watched, watched ▸ seen⟩

/-- No queue can be made for more updates than `maxCapacity`, and without one nothing is seen. -/
theorem watch_depends_on_capacity :
    let i : Instance := ⟨"s1", 0, .running, false, "10.0.0.1", some "10.255.0.1", [⟨8080, 9001⟩]⟩
    let j : Instance := { i with processId := "s2" }
    let script : Script := ⟨[⟨3, some [⟨11, .event (.created j)⟩]⟩], [⟨6, some [i]⟩]⟩
    let seen := fun capacity =>
      watch ⟨100, 20, capacity⟩ (fun _ => .reconciler) script 2222 [9, 29]
    let sets := (BackendSet.ofList [⟨"10.0.0.1", 9001, 8080⟩],
      BackendSet.ofList [⟨"10.255.0.1", 8080, 8080⟩])
    seen (2 ^ 61 - 1) = [⟨9, 1, 1, [("s1", sets)]⟩, ⟨29, 1, 1, [("s1", sets), ("s2", sets)]⟩] ∧
      seen (2 ^ 64 - 1) = [⟨9, 0, 0, []⟩, ⟨29, 0, 0, []⟩] := by
  intro i j script seen sets
  exact ⟨by decide +kernel, by decide +kernel⟩

end MeshControl.Tasks
