import MeshControl.Proofs.Tasks.Timeline

/-!
# What the tasks have left to do

At every moment what a task has done and what it has left make up all that it has to do. A move of
the reader or of the fetcher does at most one thing, which is the first of what is left. The clock
moves when no task can, so nothing is done late.

## Main definitions

* `Tasks.readerLeft`, `Tasks.fetcherLeft` — what the tasks have left to do.
* `Tasks.ReaderMove`, `Tasks.exists_readerMove` — all that a move of the reader does.
* `Tasks.FetcherMove`, `Tasks.exists_fetcherMove` — all that a move of the fetcher does.
-/

namespace MeshControl.Tasks

open Scheduler

/-! ## What is left -/

/-- What the reader has left to do. -/
def readerLeft (settings : Settings) (s : State) : Log :=
  let again := readAll settings.retryDelay s.script.subscriptions
  let feeding := readFeed settings.retryDelay again
  match s.reader with
  | .idle => again s.now
  | .subscribing due (some feed) => feeding feed due
  | .subscribing due none => again (due + settings.retryDelay)
  | .subscribed feed => feeding feed s.now
  | .reading due notice feed => feeding (⟨0, notice⟩ :: feed) due
  | .forwarding e feed => feeding (⟨0, .event e⟩ :: feed) s.now
  | .pausing due (some feed) => feeding feed due
  | .pausing due none => again due
  | .stuck | .ended => []

/-- What the fetcher has left to do in the rounds that begin until a time. -/
def fetcherLeft (settings : Settings) (time : Nat) (s : State) : Log :=
  let again := fetchAll settings time
  match s.fetcher with
  | .ticking due => again due s.now s.script.listings
  | .announcing next =>
    match s.script.listings with
    | [] => Round.acts ⟨s.now, none⟩
    | call :: rest =>
      Round.acts ⟨s.now, some call⟩ ++ again next (s.now + call.delay) (answersAfter call rest)
  | .fetching next due answer => delivery due answer ++ again next due s.script.listings
  | .delivering next instances =>
    delivery s.now (some instances) ++ again next s.now s.script.listings
  | .stuck | .ended => []

/-! ## One move of the reader -/

/-- A move of the reader does the first of what it has left, or nothing yet. -/
structure ReaderMove (settings : Settings) (s t : State) (new : Log) : Prop where
  left : readerLeft settings s = new ++ readerLeft settings t
  times : ∀ a ∈ new, a.1 = s.now
  reads : ∀ a ∈ new, a.2.byReader
  waits : ∀ due, t.reader.due? = some due → s.now ≤ due
  queue : t.queue = s.queue ++ new.updates
  subscribeCalls : t.subscribeCalls = s.subscribeCalls + new.countP (·.2 = .subscribe)
  now : t.now = s.now
  fetcher : t.fetcher = s.fetcher
  listings : t.script.listings = s.script.listings
  reconciler : t.reconciler = s.reconciler
  listingCalls : t.listingCalls = s.listingCalls

variable {settings : Settings} {s t : State}

/-- The reader does not move before the time it waits for. -/
theorem due_le_of_read {due : Nat} (h : read settings s = some t)
    (waits : s.reader.due? = some due) : due ≤ s.now := by
  obtain ⟨now, reader, fetcher, script, queue, reconciler, subscribeCalls, listingCalls⟩ := s
  by_contra early
  cases reader <;> cases waits <;> simp [read, Nat.not_le.mp early] at h

theorem exists_readerMove (waits : ∀ due, s.reader.due? = some due → s.now ≤ due)
    (h : read settings s = some t) : ∃ new, ReaderMove settings s t new := by
  obtain ⟨now, reader, fetcher, script, queue, reconciler, subscribeCalls, listingCalls⟩ := s
  cases reader with
  | idle =>
    obtain ⟨subscriptions, listings⟩ := script
    refine ⟨[(now, .subscribe)], ?_⟩
    cases subscriptions with
    | nil =>
      obtain rfl := Option.some.inj h
      constructor <;> simp [readerLeft, readAll, Act.byReader, Reader.due?]
    | cons call rest =>
      obtain ⟨delay, _ | feed⟩ := call <;> obtain rfl := Option.some.inj h <;>
        constructor <;> simp [readerLeft, readAll, Act.byReader, Reader.due?]
  | subscribing due answer =>
    obtain rfl : now = due := Nat.le_antisymm (waits due rfl) (due_le_of_read h rfl)
    refine ⟨[], ?_⟩
    cases answer with
    | some feed =>
      obtain rfl : _ = t := by simpa [read] using h
      constructor <;> simp [readerLeft, Reader.due?]
    | none =>
      obtain rfl : _ = t := by simpa [read] using h
      constructor <;> simp [readerLeft, Reader.due?]
  | subscribed feed =>
    refine ⟨[], ?_⟩
    cases feed with
    | nil =>
      obtain rfl := Option.some.inj h
      constructor <;> simp [readerLeft, readFeed, Reader.due?]
    | cons next rest =>
      obtain ⟨delay, notice⟩ := next
      obtain rfl := Option.some.inj h
      cases notice <;> constructor <;> simp [readerLeft, readFeed, Reader.due?]
  | reading due notice feed =>
    obtain rfl : now = due := Nat.le_antisymm (waits due rfl) (due_le_of_read h rfl)
    refine ⟨[], ?_⟩
    cases notice <;> obtain rfl : _ = t := by simpa [read] using h
    all_goals constructor <;> simp [readerLeft, readFeed, Reader.due?]
  | forwarding e feed =>
    refine ⟨[(now, .post (.event e))], ?_⟩
    obtain ⟨room, made⟩ := Option.ite_none_right_eq_some.mp h
    obtain rfl := Option.some.inj made
    constructor <;> simp [readerLeft, readFeed, Act.byReader, Reader.due?]
  | pausing due feed =>
    obtain rfl : now = due := Nat.le_antisymm (waits due rfl) (due_le_of_read h rfl)
    refine ⟨[], ?_⟩
    cases feed with
    | some feed =>
      obtain rfl : _ = t := by simpa [read] using h
      constructor <;> simp [readerLeft, Reader.due?]
    | none =>
      obtain rfl : _ = t := by simpa [read] using h
      constructor <;> simp [readerLeft, Reader.due?]
  | stuck => cases h
  | ended => cases h

/-! ## One move of the fetcher -/

/-- The fetcher waits for an answer that is not there yet. -/
def AwaitsAnswer (s : State) : Prop :=
  ∀ next due answer, s.fetcher = .fetching next due answer → s.now ≤ due

/-- A move of the fetcher does the first of what it has left, or nothing yet. -/
structure FetcherMove (settings : Settings) (s t : State) (new : Log) : Prop where
  left : ∀ time, s.now ≤ time → fetcherLeft settings time s = new ++ fetcherLeft settings time t
  times : ∀ a ∈ new, a.1 = s.now
  fetches : ∀ a ∈ new, a.2.byReader = false
  awaits : AwaitsAnswer t
  queue : t.queue = s.queue ++ new.updates
  listingCalls : t.listingCalls = s.listingCalls + new.countP (·.2 = .post .listingStarted)
  now : t.now = s.now
  reader : t.reader = s.reader
  subscriptions : t.script.subscriptions = s.script.subscriptions
  reconciler : t.reconciler = s.reconciler
  subscribeCalls : t.subscribeCalls = s.subscribeCalls

theorem exists_fetcherMove (ticks : 0 < settings.interval) (awaits : AwaitsAnswer s)
    (h : fetch settings s = some t) : ∃ new, FetcherMove settings s t new := by
  obtain ⟨now, reader, fetcher, script, queue, reconciler, subscribeCalls, listingCalls⟩ := s
  cases fetcher with
  | ticking due =>
    have ticked : due ≤ now := by
      by_contra early
      simp [fetch, Nat.not_le.mp early] at h
    obtain rfl : _ = t := by simpa [fetch, Nat.not_lt.mpr ticked] using h
    refine ⟨[], ?_⟩
    constructor
    · intro time reached
      have start : max due now = now := Nat.max_eq_right ticked
      have began : max due now ≤ time := start.trans_le reached
      simp only [fetcherLeft, List.nil_append]
      cases script.listings with
      | nil => rw [fetchAll_nil ticks began, start]
      | cons call rest => rw [fetchAll_cons ticks began, start]
    · simp
    · simp
    · intro next due' answer waits
      cases waits
    all_goals simp
  | announcing next =>
    obtain ⟨room, made⟩ := Option.ite_none_right_eq_some.mp h
    refine ⟨[(now, .post .listingStarted)], ?_⟩
    obtain ⟨subscriptions, listings⟩ := script
    cases listings with
    | nil =>
      obtain rfl := Option.some.inj made
      constructor <;> simp [fetcherLeft, Round.acts, Act.byReader, AwaitsAnswer]
    | cons call rest =>
      obtain rfl := Option.some.inj made
      constructor <;> simp [fetcherLeft, Round.acts, Act.byReader, AwaitsAnswer, answersAfter]
  | fetching next due answer =>
    have due_le : due ≤ now := by
      by_contra early
      simp [fetch, Nat.not_le.mp early] at h
    obtain rfl : now = due := Nat.le_antisymm (awaits _ _ _ rfl) due_le
    refine ⟨[], ?_⟩
    cases answer with
    | some instances =>
      obtain rfl : _ = t := by simpa [fetch] using h
      constructor <;> simp [fetcherLeft, AwaitsAnswer]
    | none =>
      obtain rfl : _ = t := by simpa [fetch] using h
      constructor <;> simp [fetcherLeft, delivery, AwaitsAnswer]
  | delivering next instances =>
    obtain ⟨room, made⟩ := Option.ite_none_right_eq_some.mp h
    obtain rfl := Option.some.inj made
    refine ⟨[(now, .post (.listing instances))], ?_⟩
    constructor <;> simp [fetcherLeft, delivery, Act.byReader, AwaitsAnswer]
  | stuck => cases h
  | ended => cases h

end MeshControl.Tasks
