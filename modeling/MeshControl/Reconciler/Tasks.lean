import MeshControl.Reconciler.Basic

/-!
# The tasks around the reconciler

Two tasks feed the reconciler through a bounded queue. One subscribes to the notices of the
scheduler, forwards them, pauses after a fault and subscribes again when the notices end. The
other fetches a listing at every tick of a timer, and announces it before.

The tasks run on a clock of milliseconds against a scheduler whose answers are scripted. At
every instant they move in any order as long as one of them can, and then the clock moves to the
next time that a task waits for. A task that puts something into a full queue waits for room.

## Main definitions

* `Scheduler.Script` — the answers of the scheduler.
* `Tasks.Settings`, `Tasks.State` — what the tasks are set to, and where they stand.
* `Tasks.turn`, `Tasks.move` — one move of a task, and of the task that a schedule has first.
* `Tasks.runTo`, `Tasks.observe` — the state when the clock has reached a time, and what is seen
  of it.
* `Tasks.watch` — what is seen of a run, if there can be one.
* `Tasks.shutdown` — the end of both tasks.
-/

namespace MeshControl

/-! ## The scripted scheduler -/

namespace Scheduler

/-- What a reader of notices meets. -/
inductive Notice where
  | event (e : InstanceEvent)
  /-- Reading fails, but may be tried again. -/
  | fault
  /-- There are no more notices. -/
  | finish
  deriving DecidableEq, Inhabited

/-- An answer that comes some time after it was asked for. -/
structure Delayed (α : Type) where
  delay : Nat
  answer : α
  deriving DecidableEq, Inhabited

/-- The notices of one subscription. After the last one reading waits for ever. -/
abbrev Feed := List (Delayed Notice)

structure Script where
  /-- The answers to the calls to subscribe. After the last one a call waits for ever. -/
  subscriptions : List (Delayed (Option Feed))
  /-- The answers to the calls for a listing. The last one repeats; without one a call waits
  for ever. -/
  listings : List (Delayed (Option (List Instance)))
  deriving DecidableEq, Inhabited

/-- How many answers a script can give to the reader. -/
def Script.feedSize (script : Script) : Nat :=
  script.subscriptions.foldl (fun n call => n + 1 + (call.answer.getD []).length) 0

end Scheduler

namespace Tasks

open Scheduler

structure Settings where
  /-- The time from one listing to the next. -/
  interval : Nat
  /-- The pause after a fault. -/
  retryDelay : Nat
  /-- How many updates the queue holds. -/
  capacity : Nat
  deriving DecidableEq, Inhabited

/-! ## Where the tasks stand -/

/-- Where the reader of notices stands. -/
inductive Reader where
  /-- About to subscribe. -/
  | idle
  /-- The answer to a subscription comes at a time. -/
  | subscribing (due : Nat) (answer : Option Feed)
  /-- About to read. -/
  | subscribed (feed : Feed)
  /-- The next notice comes at a time. -/
  | reading (due : Nat) (notice : Notice) (feed : Feed)
  /-- A notice waits for room in the queue. -/
  | forwarding (e : InstanceEvent) (feed : Feed)
  /-- A pause lasts until a time. Afterwards reading goes on, or a new subscription begins. -/
  | pausing (due : Nat) (feed : Option Feed)
  /-- A call waits for ever. -/
  | stuck
  | ended
  deriving DecidableEq, Inhabited

/-- Where the fetcher of listings stands. -/
inductive Fetcher where
  /-- The timer ticks at a time. -/
  | ticking (due : Nat)
  /-- The announcement waits for room in the queue. The timer ticks again at a time. -/
  | announcing (next : Nat)
  /-- The answer comes at a time. -/
  | fetching (next : Nat) (due : Nat) (answer : Option (List Instance))
  /-- The listing waits for room in the queue. -/
  | delivering (next : Nat) (instances : List Instance)
  /-- A call waits for ever, or there is no timer. -/
  | stuck
  | ended
  deriving DecidableEq, Inhabited

structure State where
  now : Nat
  reader : Reader
  fetcher : Fetcher
  script : Script
  queue : List Update
  reconciler : Reconciler
  /-- How many calls to subscribe were made. -/
  subscribeCalls : Nat
  /-- How many calls for a listing were made. -/
  listingCalls : Nat
  deriving DecidableEq, Inhabited

def start (settings : Settings) (script : Script) (sshPort : UInt16) : State where
  now := 0
  reader := .idle
  fetcher := if settings.interval = 0 then .stuck else .ticking 0
  script := script
  queue := []
  reconciler := .init sshPort
  subscribeCalls := 0
  listingCalls := 0

/-! ## Moves -/

/-- Whether the queue has room. A queue holds one update at least. -/
def hasRoom (settings : Settings) (s : State) : Bool := s.queue.length < max settings.capacity 1

def consume (s : State) : Option State :=
  match s.queue with
  | [] => none
  | u :: queue => some { s with queue := queue, reconciler := s.reconciler.apply u }

def read (settings : Settings) (s : State) : Option State :=
  match s.reader with
  | .idle =>
    let s := { s with subscribeCalls := s.subscribeCalls + 1 }
    match s.script.subscriptions with
    | [] => some { s with reader := .stuck }
    | call :: rest =>
      some { s with
        reader := .subscribing (s.now + call.delay) call.answer
        script := { s.script with subscriptions := rest } }
  | .subscribing due answer =>
    if s.now < due then none
    else
      match answer with
      | some feed => some { s with reader := .subscribed feed }
      | none => some { s with reader := .pausing (s.now + settings.retryDelay) none }
  | .subscribed feed =>
    match feed with
    | [] => some { s with reader := .stuck }
    | next :: rest => some { s with reader := .reading (s.now + next.delay) next.answer rest }
  | .reading due notice feed =>
    if s.now < due then none
    else
      match notice with
      | .event e => some { s with reader := .forwarding e feed }
      | .fault => some { s with reader := .pausing (s.now + settings.retryDelay) (some feed) }
      | .finish => some { s with reader := .idle }
  | .forwarding e feed =>
    if hasRoom settings s then
      some { s with queue := s.queue ++ [.event e], reader := .subscribed feed }
    else none
  | .pausing due feed =>
    if s.now < due then none
    else
      match feed with
      | some feed => some { s with reader := .subscribed feed }
      | none => some { s with reader := .idle }
  | .stuck | .ended => none

/-- How late a tick may be without moving the ticks after it. -/
def tolerance : Nat := 5

/-- The time of the tick after one that was due at a time. -/
def nextTick (settings : Settings) (now due : Nat) : Nat :=
  if due + tolerance < now then now + settings.interval else due + settings.interval

def fetch (settings : Settings) (s : State) : Option State :=
  match s.fetcher with
  | .ticking due =>
    if s.now < due then none
    else some { s with fetcher := .announcing (nextTick settings s.now due) }
  | .announcing next =>
    if hasRoom settings s then
      let s := { s with
        queue := s.queue ++ [Update.listingStarted]
        listingCalls := s.listingCalls + 1 }
      match s.script.listings with
      | [] => some { s with fetcher := .stuck }
      | call :: rest =>
        some { s with
          fetcher := .fetching next (s.now + call.delay) call.answer
          script := { s.script with listings := if rest.isEmpty then [call] else rest } }
    else none
  | .fetching next due answer =>
    if s.now < due then none
    else
      match answer with
      | some instances => some { s with fetcher := .delivering next instances }
      | none => some { s with fetcher := .ticking next }
  | .delivering next instances =>
    if hasRoom settings s then
      some { s with queue := s.queue ++ [.listing instances], fetcher := .ticking next }
    else none
  | .stuck | .ended => none

inductive Task where
  /-- Applies the updates. -/
  | reconciler
  | reader
  | fetcher
  deriving DecidableEq, Inhabited

/-- One move of a task, if it can move now. -/
def turn (settings : Settings) (s : State) : Task → Option State
  | .reconciler => consume s
  | .reader => read settings s
  | .fetcher => fetch settings s

/-- The task that goes first in a state. No state comes again in a run, so schedules give the
tasks every order there is. -/
abbrev Schedule := State → Task

/-- One move of one task, if any can move now. The others only go where the first one cannot. -/
def move (settings : Settings) (first : Schedule) (s : State) : Option State :=
  [first s, .reconciler, .reader, .fetcher].findSome? (turn settings s)

/-! ## The clock -/

def Reader.due? : Reader → Option Nat
  | .subscribing due _ | .reading due _ _ | .pausing due _ => some due
  | _ => none

def Fetcher.due? : Fetcher → Option Nat
  | .ticking due | .fetching _ due _ => some due
  | _ => none

/-- The next time that a task waits for. -/
def due? (s : State) : Option Nat :=
  match s.reader.due?, s.fetcher.due? with
  | some a, some b => some (min a b)
  | some a, none => some a
  | none, b => b

/-- The state when the clock has reached `time` and no task can move, after at most `fuel`
moves. -/
def advance (settings : Settings) (first : Schedule) (time : Nat) : (fuel : Nat) → State → State
  | 0, s => s
  | fuel + 1, s =>
    match move settings first s with
    | some s => advance settings first time fuel s
    | none =>
      match due? s with
      | some due => if due ≤ time then advance settings first time fuel { s with now := due } else
        { s with now := time }
      | none => { s with now := time }

/-- More moves than the tasks can make until a time. -/
def moveBound (settings : Settings) (s : State) (time : Nat) : Nat :=
  let waiting := match s.reader with
    | .subscribing _ (some feed) | .subscribed feed | .reading _ _ feed | .forwarding _ feed
    | .pausing _ (some feed) => feed.length
    | _ => 0
  10 * (s.script.feedSize + waiting + s.queue.length + 4) +
    10 * ((time - s.now) / max settings.interval 1 + 4)

def runTo (settings : Settings) (first : Schedule) (time : Nat) (s : State) : State :=
  advance settings first time (moveBound settings s time) s

/-- What is seen of the tasks at a time. -/
structure Observation where
  time : Nat
  subscribeCalls : Nat
  listingCalls : Nat
  sets : List (SchedulerId × BackendSet × BackendSet)
  deriving DecidableEq

def observe (settings : Settings) (first : Schedule) : State → List Nat → List Observation
  | _, [] => []
  | s, time :: times =>
    let s := runTo settings first time s
    ⟨time, s.subscribeCalls, s.listingCalls, s.reconciler.list⟩ :: observe settings first s times

/-- The most updates that a queue can be made for. -/
def maxCapacity : Nat := UInt64.size / 8 - 1

/-- What is seen of a run at increasing times. Where no queue can be made the run fails before a
task is started, and the reconciler stays as it was. -/
def watch (settings : Settings) (first : Schedule) (script : Script) (sshPort : UInt16)
    (times : List Nat) : List Observation :=
  if settings.capacity ≤ maxCapacity then
    observe settings first (start settings script sshPort) times
  else times.map fun time => ⟨time, 0, 0, (Reconciler.init sshPort).list⟩

/-! ## The end -/

/-- The state after the tasks were told to end. Every wait of a task ends then, and what is
left in the queue is dropped. -/
def shutdown (s : State) : State :=
  { s with reader := .ended, fetcher := .ended, queue := [] }

def hasEnded (s : State) : Bool := s.reader = .ended && s.fetcher = .ended

/-- The state after the last of several observations. -/
def runThrough (settings : Settings) (first : Schedule) (s : State) (times : List Nat) : State :=
  times.foldl (fun s time => runTo settings first time s) s

end Tasks

end MeshControl
