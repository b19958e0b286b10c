import MeshControl.Duration
import MeshControl.Instance
import MeshControl.Scheduler.Address
import MeshControl.Scheduler.EventFeed

/-!
# Calls to the scheduler

A call opens a connection, sends one request, and takes the answer if its status tells of
success.

## Main definitions

* `Scheduler.Call` — the two calls, with what is sent.
* `Scheduler.Exchange` — what the network does with a call.
* `Scheduler.bodyOf`, `Scheduler.listing`, `Scheduler.subscribe` — the results.
-/

namespace MeshControl.Scheduler

/-! ## Requests -/

inductive Call where
  | listing
  | events
  deriving DecidableEq, Inhabited

def Call.path : Call → String
  | listing => "/v1/instances"
  | events => "/v1/events"

def userAgent : String := "meshsync-backends/0.1"

def Call.line (c : Call) : String := s!"GET {c.path} HTTP/1.1"

/-- The headers of the request, in the order of their names. -/
def headers (authority : String) : List (String × String) :=
  [("accept", "application/json"), ("host", authority), ("user-agent", userAgent)]

/-! ## Results -/

/-- What the network does with a call. -/
inductive Exchange where
  /-- No connection can be made. -/
  | refused
  /-- No answer comes. -/
  | unanswered
  | answered (status : Nat) (pieces : List (List UInt8)) (ending : Ending)
  deriving DecidableEq, Inhabited

/-- Why a call fails. -/
inductive Failure where
  | connect
  | transport
  | undecodable
  | status (code : Nat) (path : String)
  | timeout (limit : Duration)
  deriving DecidableEq, Inhabited

/-- The sentence about a failure, where it does not come from below. -/
def Failure.message? : Failure → Option String
  | status code path => some s!"scheduler returned HTTP {code} for {path}"
  | timeout limit => some s!"scheduler request timed out after {limit.text}"
  | connect | transport | undecodable => none

def isSuccess (status : Nat) : Bool := 200 ≤ status && status < 300

/-- The feed of pieces that a call is answered with. -/
def bodyOf (limit : Duration) (call : Call) : Exchange → Except Failure EventFeed
  | .refused => .error .connect
  | .unanswered => .error (.timeout limit)
  | .answered status pieces ending =>
    if isSuccess status then .ok ⟨[], pieces, ending⟩
    else .error (.status status call.path)

def listing (limit : Duration) (exchange : Exchange) : Except Failure (List Instance) := do
  let body ← bodyOf limit .listing exchange
  match body.ending with
  | .broken => throw .transport
  | .silent => throw (.timeout limit)
  | .complete =>
    let reading := Json.read body.pieces.flatten
    match Json.asList Instance.ofJson reading.value with
    | .ok instances => if reading.trailing then throw .undecodable else return instances
    | .error _ => throw .undecodable

def subscribe (limit : Duration) (exchange : Exchange) : Except Failure EventFeed :=
  bodyOf limit .events exchange

end MeshControl.Scheduler
