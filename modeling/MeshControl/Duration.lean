import MeshControl.Text.Ascii
import MeshControl.Text.Blank
import MeshControl.Text.Decimal

/-!
# Durations

A duration is written as a number with a unit: milliseconds, seconds or minutes. A number alone
counts seconds.

## Main definitions

* `Duration` — with `Duration.text`.
* `Duration.parse?` — the duration that a text writes.
-/

namespace MeshControl

structure Duration where
  millis : Nat
  deriving DecidableEq, Inhabited

namespace Duration

def ofSeconds (n : Nat) : Duration := ⟨1000 * n⟩

def isZero (d : Duration) : Bool := d.millis = 0

def seconds (d : Duration) : Nat := d.millis / 1000

/-- The part of a second that is left, in nanoseconds. -/
def nanos (d : Duration) : Nat := d.millis % 1000 * 1000000

/-! ## Reading -/

inductive Unit where
  | milliseconds
  | seconds
  | minutes
  deriving DecidableEq, Inhabited

/-- The number of milliseconds in a unit. -/
def Unit.length : Unit → Nat
  | milliseconds => 1
  | seconds => 1000
  | minutes => 60000

/-- Counts of seconds and milliseconds stay below this bound. -/
def bound : Nat := UInt64.size

def splitUnit (s : List Char) : List Char × Unit :=
  match Text.dropSuffix? ['m', 's'] s with
  | some n => (n, .milliseconds)
  | none =>
    match Text.dropSuffix? ['s'] s with
    | some n => (n, .seconds)
    | none =>
      match Text.dropSuffix? ['m'] s with
      | some n => (n, .minutes)
      | none => (s, .seconds)

/-- The number that digits write, with or without a plus sign before them. -/
def count? : List Char → Option Nat
  | '+' :: digits => Text.decimal? digits
  | digits => Text.decimal? digits

def ofCount? (n : Nat) (unit : Unit) : Option Duration :=
  let inBounds := n < bound && (unit ≠ .minutes || 60 * n < bound)
  if inBounds then some ⟨n * unit.length⟩ else none

/-- The duration that a text writes. White space at its ends is ignored. -/
def parse? (text : String) : Option Duration :=
  let (number, unit) := splitUnit (Text.trim text.toList)
  (count? number).bind (ofCount? · unit)

/-! ## Showing -/

/-- The fraction of a second in as few digits as it takes. -/
def fractionText (millis : Nat) : String :=
  let digits := (Nat.toDigits 10 (1000 + millis)).drop 1
  let short := (digits.reverse.dropWhile (· = '0')).reverse
  if short = [] then "" else "." ++ String.ofList short

/-- The duration in seconds, or in a smaller unit if it is less than a second. -/
def text (d : Duration) : String :=
  if d.millis = 0 then "0ns"
  else if d.millis < 1000 then s!"{d.millis}ms"
  else s!"{d.seconds}{fractionText (d.millis % 1000)}s"

end Duration

end MeshControl
