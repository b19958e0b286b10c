import MeshControl.Text.Decimal
import MeshControl.Text.Hex
import MeshControl.Vip

/-!
# Socket addresses

An address of a host with a port, where a server listens. The host is given by the four numbers
of version 4, or by the eight numbers of version 6 in brackets.

## Main definitions

* `SocketAddress` — an address.
* `SocketAddress.parse?`, `SocketAddress.text` — reading and writing.
-/

namespace MeshControl

inductive SocketAddress where
  | v4 (ip : Ipv4) (port : UInt16)
  /-- Eight groups, and the number of a scope, which is zero if none is given. -/
  | v6 (groups : List Nat) (scope : UInt32) (port : UInt16)
  deriving DecidableEq, Inhabited

namespace SocketAddress

/-! ## Reading -/

/-- The value of a digit in base 10 or 16. -/
def digit? (radix : Nat) (c : Char) : Option Nat :=
  (Text.hexValue? c.toNat).filter (· < radix)

/-- A number below a bound, and the rest. There may be a limit to the digits, and zeros in front
may be forbidden. -/
def number (radix bound : Nat) (limit : Option Nat) (zeros : Bool) (s : List Char) :
    Option (Nat × List Char) :=
  let digits := s.takeWhile fun c => (digit? radix c).isSome
  let n := digits.foldl (fun n c => radix * n + (digit? radix c).getD 0) 0
  let tooLong := limit.any (· < digits.length)
  let padded := digits.head? = some '0' && 1 < digits.length
  if digits = [] || tooLong || (padded && !zeros) || bound ≤ n then none
  else some (n, s.drop digits.length)

def expect (c : Char) : List Char → Option (List Char)
  | [] => none
  | d :: rest => if c = d then some rest else none

def octet (s : List Char) : Option (Nat × List Char) := number 10 256 (some 3) false s

/-- Four numbers with dots between them. -/
def ipv4 (s : List Char) : Option (Ipv4 × List Char) := do
  let (a, s) ← octet s
  let (b, s) ← octet (← expect '.' s)
  let (c, s) ← octet (← expect '.' s)
  let (d, s) ← octet (← expect '.' s)
  return (⟨UInt8.ofNat a, UInt8.ofNat b, UInt8.ofNat c, UInt8.ofNat d⟩, s)

/-- A colon, unless this is the first group. -/
def separator (isFirst : Bool) (s : List Char) : Option (List Char) :=
  if isFirst then some s else expect ':' s

/-- The two groups of an address of version 4. -/
def groupsOf (ip : Ipv4) : List Nat :=
  [256 * ip.a.toNat + ip.b.toNat, 256 * ip.c.toNat + ip.d.toNat]

/-- As many groups as there are, up to a limit, and the rest. The last two may be written as an
address of version 4, and then the flag is set. -/
def readGroups : (limit : Nat) → (isFirst : Bool) → List Char → List Nat × Bool × List Char
  | 0, _, s => ([], false, s)
  | limit + 1, isFirst, s =>
    match if limit = 0 then none else (separator isFirst s).bind ipv4 with
    | some (ip, rest) => (groupsOf ip, true, rest)
    | none =>
      match (separator isFirst s).bind (number 16 65536 (some 4) true) with
      | none => ([], false, s)
      | some (g, rest) =>
        let (more, flag, rest) := readGroups limit false rest
        (g :: more, flag, rest)

/-- Eight groups, of which a run of zeros may be written as two colons. -/
def ipv6 (s : List Char) : Option (List Nat × List Char) := do
  let (head, embedded, rest) := readGroups 8 true s
  if head.length = 8 then return (head, rest)
  if embedded then none
  let rest ← expect ':' (← expect ':' rest)
  let (tail, _, rest) := readGroups (7 - head.length) true rest
  return (head ++ List.replicate (8 - head.length - tail.length) 0 ++ tail, rest)

def portAfter (s : List Char) : Option (UInt16 × List Char) := do
  let (n, rest) ← number 10 65536 none true (← expect ':' s)
  return (UInt16.ofNat n, rest)

/-- A percent sign and the number of a scope, or neither. -/
def scope (s : List Char) : UInt32 × List Char :=
  match (expect '%' s).bind (number 10 UInt32.size none true) with
  | some (n, rest) => (UInt32.ofNat n, rest)
  | none => (0, s)

def parseV4 (s : List Char) : Option (SocketAddress × List Char) := do
  let (ip, s) ← ipv4 s
  let (port, s) ← portAfter s
  return (.v4 ip port, s)

def parseV6 (s : List Char) : Option (SocketAddress × List Char) := do
  let (groups, s) ← ipv6 (← expect '[' s)
  let (scope, s) := scope s
  let (port, s) ← portAfter (← expect ']' s)
  return (.v6 groups scope port, s)

def parse? (text : String) : Option SocketAddress :=
  match (parseV4 text.toList).or (parseV6 text.toList) with
  | some (a, []) => some a
  | _ => none

/-! ## Writing -/

def hexText (n : Nat) : String := String.ofList (Nat.toDigits 16 n)

def groupsText (groups : List Nat) : String := ":".intercalate (groups.map hexText)

def leadingZeros (groups : List Nat) : Nat := (groups.takeWhile (· = 0)).length

/-- Where the first of the longest runs of zeros begins, and how long it is. -/
def longestZeros (groups : List Nat) : Nat × Nat :=
  (List.range groups.length).foldl
    (fun best i =>
      let n := leadingZeros (groups.drop i)
      if best.2 < n then (i, n) else best)
    (0, 0)

/-- The shortest text of eight groups. An address of version 4 that is written in them is shown
as such. -/
def ipv6Text (groups : List Nat) : String :=
  match groups with
  | [0, 0, 0, 0, 0, 0xffff, high, low] =>
    s!"::ffff:{high / 256}.{high % 256}.{low / 256}.{low % 256}"
  | _ =>
    let (start, length) := longestZeros groups
    if 1 < length then
      groupsText (groups.take start) ++ "::" ++ groupsText (groups.drop (start + length))
    else groupsText groups

def text : SocketAddress → String
  | v4 ip port => s!"{ip.text}:{port.toNat}"
  | v6 groups scope port =>
    let scopeText := if scope = 0 then "" else s!"%{scope.toNat}"
    s!"[{ipv6Text groups}{scopeText}]:{port.toNat}"

end SocketAddress

end MeshControl
