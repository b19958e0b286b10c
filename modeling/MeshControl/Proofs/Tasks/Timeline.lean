import Mathlib
import MeshControl.Reconciler.Tasks

/-!
# What the tasks have to do, and when

What the reader and the fetcher have to do follows from the script, the interval and the pause
alone. The reader subscribes again and again, forwards every event when it comes, and loses time by
faults but no events. The fetcher begins rounds, each with an announcement and a call, the next one
when the timer has ticked and the call is answered. Both together, in the order of the times, are
the timeline of the tasks. Only what they do at one time can come in another order.

## Main definitions

* `Tasks.Act`, `Tasks.Log` — what a task does, with the times.
* `Tasks.readFeed`, `Tasks.readAll` — what the reader has to do.
* `Tasks.Round`, `Tasks.rounds` — what the fetcher has to do until a time.
* `Tasks.timeline` — what both have to do until a time.
* `Tasks.Completes` — a log of all that both have to do until a time, in any order.
* `Tasks.OrderFree`, `Tasks.Log.Untied` — the order does not show, and there is only one.
* `Tasks.yielded` — the events that a script has for its reader.
-/

namespace MeshControl.Tasks

open Scheduler

/-! ## Acts -/

/-- What a task does. -/
inductive Act where
  /-- The reader calls to subscribe. -/
  | subscribe
  /-- An update is put into the queue. The call for a listing comes with its announcement. -/
  | post (u : Update)
  deriving DecidableEq

namespace Act

def update? : Act → Option Update
  | subscribe => none
  | post u => some u

/-- Whether it is the reader that does this. -/
def byReader : Act → Bool
  | subscribe | post (.event _) => true
  | post .listingStarted | post (.listing _) => false

def isEvent : Act → Bool
  | post (.event _) => true
  | subscribe | post .listingStarted | post (.listing _) => false

end Act

/-- Acts with their times. -/
abbrev Log := List (Nat × Act)

/-- The updates that are put into the queue. -/
def Log.updates (log : Log) : List Update := log.filterMap (·.2.update?)

@[simp] theorem Log.updates_nil : updates [] = [] := rfl

@[simp] theorem Log.updates_post (t : Nat) (u : Update) (log : Log) :
    updates ((t, .post u) :: log) = u :: updates log := rfl

@[simp] theorem Log.updates_subscribe (t : Nat) (log : Log) :
    updates ((t, .subscribe) :: log) = updates log := rfl

@[simp] theorem Log.updates_append (log log' : Log) :
    updates (log ++ log') = updates log ++ updates log' :=
  List.filterMap_append

/-- The updates that are put into the queue, with their times. -/
def Log.posts (log : Log) : List (Nat × Update) :=
  log.filterMap fun a => a.2.update?.map (a.1, ·)

@[simp] theorem Log.posts_append (log log' : Log) : posts (log ++ log') = posts log ++ posts log' :=
  List.filterMap_append

theorem Log.posts_eq_map {log : Log} {time : Nat} (times : ∀ a ∈ log, a.1 = time) :
    log.posts = log.updates.map (time, ·) := by
  rw [posts, updates, List.map_filterMap]
  exact List.filterMap_congr fun a ha => by rw [times a ha]

@[simp] theorem Log.map_posts (log : Log) : log.posts.map (·.2) = log.updates := by
  simp only [posts, updates, List.map_filterMap]
  exact List.filterMap_congr fun a _ => by cases a.2.update? <;> rfl

/-- The acts by which something is put into the queue. -/
def Log.posting (log : Log) : Log := log.filter (·.2.update?.isSome)

@[simp] theorem Log.posts_posting (log : Log) : log.posting.posts = log.posts := by
  rw [posts, posting, List.filterMap_filter]
  exact List.filterMap_congr fun a _ => by cases a.2.update? <;> rfl

/-- What is done until a time. -/
def Log.until (log : Log) (time : Nat) : Log := log.filter (·.1 ≤ time)

/-! ## The reader -/

/-- What the reader of a feed does from a time on. Something else comes after the end of the
feed. -/
def readFeed (pause : Nat) (next : Nat → Log) : Feed → Nat → Log
  | [], _ => []
  | ⟨delay, .event e⟩ :: feed, t =>
    (t + delay, .post (.event e)) :: readFeed pause next feed (t + delay)
  | ⟨delay, .fault⟩ :: feed, t => readFeed pause next feed (t + delay + pause)
  | ⟨delay, .finish⟩ :: _, t => next (t + delay)

/-- What the reader does from a time on with the given answers to its subscriptions. -/
def readAll (pause : Nat) : List (Delayed (Option Feed)) → Nat → Log
  | [], t => [(t, .subscribe)]
  | ⟨delay, none⟩ :: rest, t => (t, .subscribe) :: readAll pause rest (t + delay + pause)
  | ⟨delay, some feed⟩ :: rest, t =>
    (t, .subscribe) :: readFeed pause (readAll pause rest) feed (t + delay)

/-- The events of a feed up to its end. -/
def feedEvents : Feed → List InstanceEvent
  | [] => []
  | ⟨_, .event e⟩ :: feed => e :: feedEvents feed
  | ⟨_, .fault⟩ :: feed => feedEvents feed
  | ⟨_, .finish⟩ :: _ => []

/-- Whether a feed ends. -/
def feedEnds : Feed → Bool
  | [] => false
  | ⟨_, .event _⟩ :: feed | ⟨_, .fault⟩ :: feed => feedEnds feed
  | ⟨_, .finish⟩ :: _ => true

/-- The events of successive subscriptions. There is none after a feed that does not end. -/
def yielded : List (Delayed (Option Feed)) → List InstanceEvent
  | [] => []
  | ⟨_, none⟩ :: rest => yielded rest
  | ⟨_, some feed⟩ :: rest => feedEvents feed ++ if feedEnds feed then yielded rest else []

theorem updates_readFeed (pause : Nat) (next : Nat → Log) {after : List Update}
    (h : ∀ t, (next t).updates = after) (feed : Feed) (t : Nat) :
    (readFeed pause next feed t).updates =
      (feedEvents feed).map .event ++ if feedEnds feed then after else [] := by
  fun_induction readFeed pause next feed t with
  | case1 t => rfl
  | case2 delay e feed t ih => rw [Log.updates_post, ih]; rfl
  | case3 delay feed t ih => exact ih
  | case4 delay feed t => exact h _

theorem le_of_mem_readFeed {pause : Nat} {next : Nat → Log}
    (h : ∀ t, ∀ a ∈ next t, t ≤ a.1) {feed : Feed} {t : Nat} :
    ∀ a ∈ readFeed pause next feed t, t ≤ a.1 := by
  fun_induction readFeed pause next feed t <;> grind

theorem le_of_mem_readAll {pause : Nat} {subscriptions : List (Delayed (Option Feed))} {t : Nat} :
    ∀ a ∈ readAll pause subscriptions t, t ≤ a.1 := by
  induction subscriptions generalizing t with
  | nil => simp [readAll]
  | cons call rest ih =>
    obtain ⟨delay, _ | feed⟩ := call
    · grind [readAll]
    · have later : ∀ a ∈ readFeed pause (readAll pause rest) feed (t + delay), t + delay ≤ a.1 :=
        le_of_mem_readFeed fun t => ih (t := t)
      grind [readAll]

/-- Whatever faults, pauses and new subscriptions there are, the reader posts all events of the
subscriptions, each once and in order, and nothing else. -/
theorem updates_readAll (pause : Nat) (subscriptions : List (Delayed (Option Feed))) (t : Nat) :
    (readAll pause subscriptions t).updates = (yielded subscriptions).map .event := by
  induction subscriptions generalizing t with
  | nil => rfl
  | cons call rest ih =>
    obtain ⟨delay, _ | feed⟩ := call
    · exact ih _
    · rw [readAll, Log.updates_subscribe, updates_readFeed pause _ ih, yielded, List.map_append]
      split_ifs <;> rfl

/-! ## The fetcher -/

/-- One call for a listing. -/
structure Round where
  start : Nat
  /-- Nothing stands for a call that waits for ever. -/
  answer : Option (Delayed (Option (List Instance)))

/-- A listing is posted when it comes. -/
def delivery (time : Nat) : Option (List Instance) → Log
  | some instances => [(time, .post (.listing instances))]
  | none => []

namespace Round

/-- A listing is announced with the call, and posted when it comes. -/
def acts (r : Round) : Log :=
  (r.start, .post .listingStarted) ::
    match r.answer with
    | some call => delivery (r.start + call.delay) call.answer
    | none => []

/-- The call is answered at a time. -/
def AnsweredAt (r : Round) (time : Nat) : Prop :=
  ∃ call, r.answer = some call ∧ r.start + call.delay = time

end Round

/-- The answers that are left after the first one. The last one repeats. -/
def answersAfter (call : Delayed (Option (List Instance)))
    (rest : List (Delayed (Option (List Instance)))) : List (Delayed (Option (List Instance))) :=
  if rest.isEmpty then [call] else rest

theorem lt_nextTick {settings : Settings} (ticks : 0 < settings.interval) {start due : Nat}
    (h : due ≤ start) : due < nextTick settings start due := by
  unfold nextTick
  split_ifs <;> omega

/-- The rounds that begin until a time, when the timer ticks next at a time and the fetcher is free
at another. Without an interval there is no timer. -/
def rounds (settings : Settings) (time due free : Nat)
    (listings : List (Delayed (Option (List Instance)))) : List Round :=
  let start := max due free
  if _began : 0 < settings.interval ∧ start ≤ time then
    match listings with
    | [] => [⟨start, none⟩]
    | call :: rest =>
      ⟨start, some call⟩ :: rounds settings time (nextTick settings start due) (start + call.delay)
        (answersAfter call rest)
  else []
termination_by time + 1 - due
decreasing_by
  have later := lt_nextTick _began.1 (Nat.le_max_left due free)
  omega

/-- What the fetcher does in the rounds that begin until a time. -/
def fetchAll (settings : Settings) (time due free : Nat)
    (listings : List (Delayed (Option (List Instance)))) : Log :=
  (rounds settings time due free listings).flatMap Round.acts

theorem fetchAll_nil {settings : Settings} {time due free : Nat} (ticks : 0 < settings.interval)
    (began : max due free ≤ time) :
    fetchAll settings time due free [] = Round.acts ⟨max due free, none⟩ := by
  rw [fetchAll, rounds, dif_pos ⟨ticks, began⟩, List.flatMap_singleton]

theorem fetchAll_cons {settings : Settings} {time due free : Nat} (ticks : 0 < settings.interval)
    (began : max due free ≤ time) (call : Delayed (Option (List Instance)))
    (rest : List (Delayed (Option (List Instance)))) :
    fetchAll settings time due free (call :: rest) =
      Round.acts ⟨max due free, some call⟩ ++
        fetchAll settings time (nextTick settings (max due free) due)
          (max due free + call.delay) (answersAfter call rest) := by
  rw [fetchAll, rounds, dif_pos ⟨ticks, began⟩, List.flatMap_cons, fetchAll]

/-- When the fetcher is free does not matter before the timer ticks. -/
theorem fetchAll_congr {settings : Settings} {time due free free' : Nat}
    (same : max due free = max due free')
    (listings : List (Delayed (Option (List Instance)))) :
    fetchAll settings time due free listings = fetchAll settings time due free' listings := by
  rw [fetchAll, fetchAll]
  unfold rounds
  simp only [same]

theorem rounds_nil_of_not_ticks {settings : Settings} {time due free : Nat}
    {listings : List (Delayed (Option (List Instance)))} (h : ¬ 0 < settings.interval) :
    rounds settings time due free listings = [] := by
  unfold rounds
  exact dif_neg fun began => h began.1

theorem rounds_nil_of_lt {settings : Settings} {time due free : Nat}
    {listings : List (Delayed (Option (List Instance)))} (h : time < max due free) :
    rounds settings time due free listings = [] := by
  unfold rounds
  exact dif_neg fun began => absurd began.2 (Nat.not_le.mpr h)

theorem le_start {settings : Settings} {time due free : Nat}
    {listings : List (Delayed (Option (List Instance)))} {r : Round}
    (h : r ∈ rounds settings time due free listings) : free ≤ r.start ∧ r.start ≤ time := by
  fun_induction rounds settings time due free listings with
  | case1 due free start began =>
    obtain rfl := List.mem_singleton.mp h
    exact ⟨Nat.le_max_right due free, began.2⟩
  | case2 due free start began call rest ih =>
    rcases List.mem_cons.mp h with rfl | h
    · exact ⟨Nat.le_max_right due free, began.2⟩
    · have := ih h
      omega
  | case3 => exact absurd h List.not_mem_nil

/-- No round begins before the call of the one before it is answered. -/
theorem isChain_rounds (settings : Settings) (time due free : Nat)
    (listings : List (Delayed (Option (List Instance)))) :
    (rounds settings time due free listings).IsChain fun r r' =>
      ∃ answered, r.AnsweredAt answered ∧ answered ≤ r'.start := by
  fun_induction rounds settings time due free listings with
  | case1 => exact .singleton _
  | case2 due free start began call rest ih =>
    refine .cons ih fun r' first => ?_
    have := le_start (List.mem_of_mem_head? first)
    exact ⟨_, ⟨call, rfl, rfl⟩, this.1⟩
  | case3 => exact .nil

/-- The calls meet the answers in their order, the last of which repeats. -/
theorem answer_of_getElem?_rounds (settings : Settings) (time due free : Nat)
    (listings : List (Delayed (Option (List Instance)))) :
    ∀ (i : Nat) (r : Round), (rounds settings time due free listings)[i]? = some r →
      r.answer = listings[min i (listings.length - 1)]? := by
  fun_induction rounds settings time due free listings with
  | case1 due free start began =>
    rintro (_ | i) r h <;> grind
  | case2 due free start began call rest ih =>
    rintro (_ | i) r h
    · grind
    · have later := ih i r h
      cases rest <;> grind [answersAfter]
  | case3 => simp

/-- How many updates the queue holds does not matter to the rounds. -/
theorem rounds_congr {settings settings' : Settings} (same : settings'.interval = settings.interval)
    (time due free : Nat) (listings : List (Delayed (Option (List Instance)))) :
    rounds settings' time due free listings = rounds settings time due free listings := by
  fun_induction rounds settings time due free listings with
  | case1 due free start began =>
    conv_lhs => unfold rounds
    rw [dif_pos (same ▸ began)]
  | case2 due free start began call rest ih =>
    have next : nextTick settings' start due = nextTick settings start due := by
      simp only [nextTick, same]
    conv_lhs => unfold rounds
    rw [dif_pos (same ▸ began), ← ih, ← next]
  | case3 due free listings start late =>
    conv_lhs => unfold rounds
    rw [dif_neg (same ▸ late)]

/-! ## Both together -/

/-- A list is merged from two parts if its order is the one they are merged in. -/
theorem merge_filter {α : Type} {p : α → Bool} {le : α → α → Bool} {l : List α}
    (h : l.Pairwise fun a b => if p a then p b = false → le a b else p b → le b a = false) :
    (l.filter p).merge (l.filter fun a => !p a) le = l := by
  induction l with
  | nil => simp
  | cons a l ih =>
    obtain ⟨first, others⟩ := List.pairwise_cons.mp h
    have ih := ih others
    by_cases ha : p a
    · rw [List.filter_cons_of_pos ha, List.filter_cons_of_neg (by simpa using ha)]
      cases right : l.filter fun a => !p a with
      | nil => rw [right, List.merge_right] at ih; rw [List.merge_right, ih]
      | cons b bs =>
        have hb : b ∈ l ∧ p b = false := by
          simpa using List.mem_filter.mp (right ▸ List.mem_cons_self : b ∈ l.filter fun a => !p a)
        have le_ab : le a b := (if_pos ha ▸ first b hb.1) hb.2
        rw [List.cons_merge_cons_pos le _ _ le_ab, ← right, ih]
    · rw [List.filter_cons_of_neg ha, List.filter_cons_of_pos (by simpa using ha)]
      cases left : l.filter p with
      | nil => rw [left, List.nil_merge] at ih; rw [List.nil_merge, ih]
      | cons b bs =>
        have hb : b ∈ l ∧ p b := List.mem_filter.mp (left ▸ List.mem_cons_self : b ∈ l.filter p)
        have not_le : le b a = false := (if_neg ha ▸ first b hb.1) hb.2
        rw [List.cons_merge_cons_neg le _ _ (by simp [not_le]), ← left, ih]

/-- A list that is merged from two parts has them as its parts. -/
theorem filter_merge {α : Type} {p : α → Bool} (le : α → α → Bool) {l r : List α}
    (hl : ∀ a ∈ l, p a) (hr : ∀ b ∈ r, p b = false) :
    (l.merge r le).filter p = l ∧ (l.merge r le).filter (fun a => !p a) = r := by
  fun_induction List.merge l r le with
  | case1 r => simpa using hr
  | case2 l => simpa using hl
  | case3 | case4 => grind

/-- What the tasks do until a time. Where they do something at one time, the reader comes first. -/
def timeline (settings : Settings) (script : Script) (time : Nat) : Log :=
  (Log.until (readAll settings.retryDelay script.subscriptions 0) time).merge
    (Log.until (fetchAll settings time 0 0 script.listings) time) fun a b => a.1 ≤ b.1

/-- A log of all that the tasks do until a time, in the order of the times. -/
structure Completes (settings : Settings) (script : Script) (time : Nat) (log : Log) : Prop where
  ordered : log.Pairwise fun a b => a.1 ≤ b.1
  reader : log.filter (·.2.byReader) =
    Log.until (readAll settings.retryDelay script.subscriptions 0) time
  fetcher : log.filter (!·.2.byReader) =
    Log.until (fetchAll settings time 0 0 script.listings) time

/-- No event is put into the queue at a time at which the fetcher puts something there. -/
def Log.Untied (log : Log) : Prop :=
  ∀ a ∈ log, ∀ b ∈ log, a.2.isEvent → b.2.byReader = false → a.1 ≠ b.1

instance (log : Log) : Decidable log.Untied :=
  inferInstanceAs (Decidable (∀ a ∈ log, ∀ b ∈ log, a.2.isEvent → b.2.byReader = false → a.1 ≠ b.1))

/-- What is seen at a time after a log. -/
def seen (ssh : UInt16) (time : Nat) (log : Log) : Observation :=
  ⟨time, log.countP (·.2 = .subscribe), log.countP (·.2 = .post .listingStarted),
    ((Reconciler.init ssh).applyAll log.updates).list⟩

/-- What is seen at a time after the timeline until then. -/
def expected (settings : Settings) (script : Script) (ssh : UInt16) (time : Nat) : Observation :=
  seen ssh time (timeline settings script time)

/-- The order of what is done at one time does not show in the sets. -/
def OrderFree (settings : Settings) (script : Script) (ssh : UInt16) (time : Nat) : Prop :=
  ∀ log, Completes settings script time log →
    (seen ssh time log).sets = (expected settings script ssh time).sets

variable {settings : Settings} {script : Script} {time : Nat} {log log' : Log}

namespace Completes

theorem mem_iff (h : Completes settings script time log) {a : Nat × Act} :
    a ∈ log ↔ a ∈ Log.until (readAll settings.retryDelay script.subscriptions 0) time ∨
      a ∈ Log.until (fetchAll settings time 0 0 script.listings) time := by
  rw [← h.reader, ← h.fetcher]
  grind

/-- If the acts have some order, they also have the one in which the reader comes first. -/
theorem merged (h : Completes settings script time log) :
    Completes settings script time (timeline settings script time) := by
  have reads : ∀ a ∈ Log.until (readAll settings.retryDelay script.subscriptions 0) time,
      a.2.byReader := by
    rw [← h.reader]
    exact fun a ha => (List.mem_filter.mp ha).2
  have fetches : ∀ a ∈ Log.until (fetchAll settings time 0 0 script.listings) time,
      a.2.byReader = false := by
    rw [← h.fetcher]
    exact fun a ha => by simpa using (List.mem_filter.mp ha).2
  obtain ⟨reader, fetcher⟩ := filter_merge (p := fun a : Nat × Act => a.2.byReader)
    (fun a b => a.1 ≤ b.1) reads fetches
  refine ⟨?_, reader, fetcher⟩
  have ordered : ∀ {l : Log}, l.Sublist log → l.Pairwise fun a b => decide (a.1 ≤ b.1) :=
    fun within => (h.ordered.sublist within).imp decide_eq_true
  refine (List.pairwise_merge (fun a b c => ?_) (fun a b => ?_) _ _ ?_ ?_).imp of_decide_eq_true
  · simpa using le_trans
  · simpa using le_total a.1 b.1
  · exact h.reader ▸ ordered List.filter_sublist
  · exact h.fetcher ▸ ordered List.filter_sublist

/-- The calls to subscribe and the announcements are counted alike in any order. -/
theorem countP_eq (h : Completes settings script time log)
    (h' : Completes settings script time log') (act : Act) :
    log.countP (·.2 = act) = log'.countP (·.2 = act) := by
  have part : ∀ l : Log, l.countP (·.2 = act) =
      (l.filter (·.2.byReader)).countP (·.2 = act) +
        (l.filter (!·.2.byReader)).countP (·.2 = act) := fun l =>
    List.countP_eq_countP_filter_add ..
  rw [part, part log', h.reader, h.fetcher, h'.reader, h'.fetcher]

theorem posting_eq_merge (h : Completes settings script time log) (untied : log.Untied) :
    log.posting = List.merge
      (Log.until (readAll settings.retryDelay script.subscriptions 0) time).posting
      (Log.until (fetchAll settings time 0 0 script.listings) time).posting
      fun a b => a.1 ≤ b.1 := by
  have commuted : ∀ p : Nat × Act → Bool, Log.posting (log.filter p) = log.posting.filter p :=
    fun p => List.filter_comm ..
  rw [← h.reader, ← h.fetcher, commuted, commuted]
  refine (merge_filter ((h.ordered.filter _).imp_of_mem fun {a b} ha hb le => ?_)).symm
  split_ifs with first
  · exact fun _ => decide_eq_true le
  · intro reads
    have apart : a.1 ≠ b.1 := by
      obtain ⟨t, _ | u⟩ := a <;> obtain ⟨t', _ | _ | _ | _⟩ := b <;>
        grind [Act.byReader, Act.isEvent, Act.update?, Log.Untied]
    exact decide_eq_false (Nat.not_le.mpr (lt_of_le_of_ne le apart))

/-- Where nothing is tied, everything is put into the queue in the order of its times. -/
theorem posts_eq (h : Completes settings script time log)
    (h' : Completes settings script time log') (untied : log.Untied) : log.posts = log'.posts := by
  have untied' : log'.Untied := by
    simpa only [Log.Untied, h.mem_iff, h'.mem_iff] using untied
  rw [← Log.posts_posting, ← Log.posts_posting log', h.posting_eq_merge untied,
    h'.posting_eq_merge untied']

theorem orderFree (h : Completes settings script time log) (untied : log.Untied) (ssh : UInt16) :
    OrderFree settings script ssh time := by
  intro log' h'
  have updates : log'.updates = (timeline settings script time).updates := by
    rw [← Log.map_posts, ← Log.map_posts, ← h.posts_eq h' untied, h.posts_eq h.merged untied]
  simp only [expected, seen, updates]

/-- Only the sets can depend on the order. -/
theorem seen_eq (h : Completes settings script time log) {ssh : UInt16}
    (free : OrderFree settings script ssh time) :
    seen ssh time log = expected settings script ssh time := by
  have sets := free log h
  simp only [expected, seen] at sets ⊢
  rw [h.countP_eq h.merged, h.countP_eq h.merged, sets]

end Completes

/-- How many updates the queue holds does not matter to what is seen. -/
theorem expected_congr {settings' : Settings} (interval : settings'.interval = settings.interval)
    (retryDelay : settings'.retryDelay = settings.retryDelay) (ssh : UInt16) (time : Nat) :
    expected settings' script ssh time = expected settings script ssh time := by
  simp only [expected, timeline, fetchAll, retryDelay, rounds_congr interval]

/-! ## Calls without success -/

theorem list_congr {r r' : Reconciler} (same : r.store = r'.store) : r.list = r'.list := by
  simp only [Reconciler.list, Reconciler.internal, same]

/-- Whether a listing comes before one is announced again. -/
def comesListing : List Update → Bool
  | [] | .listingStarted :: _ => false
  | .listing _ :: _ => true
  | .event _ :: updates => comesListing updates

/-- The updates without the announcements of listings that do not come. -/
def withoutFailures : List Update → List Update
  | [] => []
  | .listingStarted :: updates =>
    if comesListing updates then .listingStarted :: withoutFailures updates
    else withoutFailures updates
  | .event e :: updates => .event e :: withoutFailures updates
  | .listing instances :: updates => .listing instances :: withoutFailures updates

/-- Two reconcilers have the same sets. They have the same journal too if a listing is to come. -/
structure AlikeUntil (updates : List Update) (r r' : Reconciler) : Prop where
  sshPort : r.sshPort = r'.sshPort
  store : r.store = r'.store
  journal : comesListing updates → r.journal = r'.journal

theorem AlikeUntil.applyAll {updates : List Update} {r r' : Reconciler}
    (h : AlikeUntil updates r r') :
    (r.applyAll updates).store = (r'.applyAll (withoutFailures updates)).store := by
  induction updates generalizing r r' with
  | nil => exact h.store
  | cons u updates ih =>
    cases u with
    | event e =>
      refine ih ⟨h.sshPort, ?_, fun comes => ?_⟩
      · simp only [Reconciler.apply, h.sshPort, h.store]
      · simp only [Reconciler.apply, h.journal comes]
    | listing instances =>
      refine ih ⟨h.sshPort, ?_, fun _ => rfl⟩
      simp only [Reconciler.apply, h.sshPort, h.store, h.journal rfl]
    | listingStarted =>
      unfold withoutFailures
      split_ifs with comes
      · exact ih ⟨h.sshPort, h.store, fun _ => rfl⟩
      · exact ih ⟨h.sshPort, h.store, fun comes' => absurd comes' comes⟩

/-- A listing that does not come leaves the sets as if it had never been asked for. -/
theorem list_applyAll_withoutFailures (r : Reconciler) (updates : List Update) :
    (r.applyAll (withoutFailures updates)).list = (r.applyAll updates).list :=
  (list_congr (AlikeUntil.applyAll ⟨rfl, rfl, fun _ => rfl⟩)).symm

/-- Only calls are made, and nothing comes of them. -/
def Log.Quiet (log : Log) : Prop := ∀ a ∈ log, a.2 = .subscribe ∨ a.2 = .post .listingStarted

/-- Where nothing comes of any call, the sets stay. -/
theorem Log.Quiet.store_applyAll (h : log.Quiet) (r : Reconciler) :
    (r.applyAll log.updates).store = r.store := by
  induction log generalizing r with
  | nil => rfl
  | cons a log ih =>
    obtain ⟨first, others⟩ := List.forall_mem_cons.mp h
    obtain ⟨t, act⟩ := a
    rcases first with rfl | rfl
    · exact ih others r
    · exact ih others (r.apply .listingStarted)

/-- What is done until a time comes before the rest. -/
theorem Log.until_append_filter (ordered : log.Pairwise fun a b => a.1 ≤ b.1) (time : Nat) :
    log.until time ++ log.filter (time < ·.1) = log := by
  induction log with
  | nil => rfl
  | cons a log ih =>
    obtain ⟨first, others⟩ := List.pairwise_cons.mp ordered
    by_cases soon : a.1 ≤ time
    · have kept : Log.until (a :: log) time = a :: Log.until log time :=
        List.filter_cons_of_pos (decide_eq_true soon)
      rw [kept, List.filter_cons_of_neg (by simpa using soon), List.cons_append, ih others]
    · have later : ∀ b ∈ a :: log, time < b.1 := by grind
      rw [List.filter_eq_self.mpr fun b hb => decide_eq_true (later b hb), Log.until,
        List.filter_eq_nil_iff.mpr fun b hb => by simpa using later b hb, List.nil_append]

/-- While nothing comes of any call, the same sets are seen. -/
theorem sets_seen_of_quiet (ordered : log.Pairwise fun a b => a.1 ≤ b.1) {later : Nat}
    (le : time ≤ later) (quiet : Log.Quiet ((log.until later).filter (time < ·.1)))
    (ssh : UInt16) :
    (seen ssh later (log.until later)).sets = (seen ssh time (log.until time)).sets := by
  have before : (log.until later).until time = log.until time := by
    simp only [Log.until, List.filter_filter]
    grind
  have split := Log.until_append_filter (ordered.filter (·.1 ≤ later)) time
  rw [← Log.until, before] at split
  simp only [seen]
  rw [← split, Log.updates_append, Reconciler.applyAll_append]
  exact list_congr (quiet.store_applyAll _)

end MeshControl.Tasks
