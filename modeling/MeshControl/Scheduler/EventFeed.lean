import MeshControl.Event
import MeshControl.Json.Reader

/-!
# The feed of notices

The scheduler sends notices line by line, in pieces that need not end where lines do. A line
that is blank is skipped, and one that cannot be decoded costs nothing but itself.

## Main definitions

* `EventFeed` — what has come and what will come.
* `EventFeed.next` — the next result of reading, and the feed after it.
* `EventFeed.readAll` — every result up to the end.
* `EventFeed.segments` — the lines of a text that are not blank.
-/

namespace MeshControl

/-- How the pieces end. -/
inductive Ending where
  | complete
  /-- The connection breaks. -/
  | broken
  /-- Nothing comes any more, but the connection stays. -/
  | silent
  deriving DecidableEq, Inhabited

structure EventFeed where
  /-- What has come and is not yet read. -/
  buffer : List UInt8
  pieces : List (List UInt8)
  ending : Ending
  deriving DecidableEq, Inhabited

namespace EventFeed

/-! ## Lines -/

def newline : UInt8 := 0x0A

/-- Whether a byte is white space: a space, a tab, a form feed or an end of a line. -/
def isBlank (b : UInt8) : Bool := b = 0x20 || b = 0x09 || b = 0x0A || b = 0x0C || b = 0x0D

def split : List UInt8 → List (List UInt8)
  | [] => [[]]
  | b :: rest =>
    if b = newline then [] :: split rest
    else
      match split rest with
      | [] => [[b]]
      | line :: lines => (b :: line) :: lines

/-- The lines of a text that are not blank, with the last one even if its end is missing. -/
def segments (text : List UInt8) : List (List UInt8) := (split text).filter (!·.all isBlank)

/-- The first line with its end that is not blank, if there is one, and the rest. -/
def takeLine (lineSoFar : List UInt8) : List UInt8 → Option (List UInt8) × List UInt8
  | [] => (none, lineSoFar)
  | b :: rest =>
    if b = newline then
      if lineSoFar.all isBlank then takeLine [] rest else (some lineSoFar, rest)
    else takeLine (lineSoFar ++ [b]) rest

/-! ## Reading -/

def decodeLine (line : List UInt8) : Option InstanceEvent :=
  let reading := Json.read line
  if reading.trailing then none else (InstanceEvent.ofJson reading.value).toOption

/-- What comes of reading. -/
inductive Outcome where
  | event (e : InstanceEvent)
  /-- A line that cannot be decoded. -/
  | undecodable
  /-- The connection is broken. -/
  | interrupted
  | finished
  /-- Reading waits for ever. -/
  | waiting
  deriving DecidableEq, Inhabited

def Outcome.ofLine (line : List UInt8) : Outcome :=
  match decodeLine line with
  | some e => event e
  | none => undecodable

/-- The next result when all pieces have come. What is left is a line without its end. -/
def atEnd (rest : List UInt8) (ending : Ending) : Outcome × EventFeed :=
  match ending with
  | .broken => (.interrupted, ⟨rest, [], ending⟩)
  | .silent => (.waiting, ⟨rest, [], ending⟩)
  | .complete =>
    (if rest.all isBlank then .finished else .ofLine rest, ⟨[], [], ending⟩)

/-- The next result of reading what has come and the given pieces. -/
def nextOf (ending : Ending) (buffer : List UInt8) : (pieces : List (List UInt8)) →
    Outcome × EventFeed
  | [] =>
    match takeLine [] buffer with
    | (some line, rest) => (.ofLine line, ⟨rest, [], ending⟩)
    | (none, rest) => atEnd rest ending
  | piece :: pieces =>
    match takeLine [] buffer with
    | (some line, rest) => (.ofLine line, ⟨rest, piece :: pieces, ending⟩)
    | (none, rest) => nextOf ending (rest ++ piece) pieces

/-- The next result of reading, and the feed after it. -/
def next (f : EventFeed) : Outcome × EventFeed := nextOf f.ending f.buffer f.pieces

def Outcome.isLast : Outcome → Bool
  | event _ | undecodable => false
  | interrupted | finished | waiting => true

def readSome : (n : Nat) → EventFeed → List Outcome
  | 0, _ => []
  | n + 1, f =>
    let (outcome, f') := f.next
    if outcome.isLast then [outcome] else outcome :: readSome n f'

/-- Every result of reading. There is at most one for every byte, and one at the end. -/
def readAll (f : EventFeed) : List Outcome :=
  readSome (f.buffer.length + f.pieces.flatten.length + 1) f

end EventFeed

end MeshControl
