import MeshControl.Text.Ascii

/-!
# Request targets

A request target is a whole address, `scheme://authority/path`, the name of an authority alone,
or a path alone. A query and a fragment may follow the path.

## Main definitions

* `Target` — the parts of a target.
* `Target.parse` — the target that a text writes, or what is wrong with it.
-/

namespace MeshControl

structure Target where
  scheme : Option String
  authority : Option String
  path : String
  deriving DecidableEq, Inhabited

namespace Target

/-- What is wrong with a text. -/
inductive Fault where
  | empty
  | tooLong
  | badCharacter
  | badAuthority
  | badFormat
  | longScheme
  deriving DecidableEq, Inhabited

def Fault.message : Fault → String
  | empty => "empty string"
  | tooLong => "uri too long"
  | badCharacter => "invalid uri character"
  | badAuthority => "invalid authority"
  | badFormat => "invalid format"
  | longScheme => "scheme too long"

/-- The longest text, in bytes. -/
def maxLength : Nat := 65534

def maxScheme : Nat := 64

/-- The most colons in the last part of an authority, which may be an address with eight of
them in brackets. -/
def maxColons : Nat := 8

/-! ## Character classes -/

def isAlphanumeric (c : Char) : Bool := c.isAlpha || c.isDigit

def isSchemeCharacter (c : Char) : Bool := isAlphanumeric c || "+-.~".toList.contains c

def isAuthorityCharacter (c : Char) : Bool :=
  isAlphanumeric c || "!$&'()*+,-.:;=@[]_~".toList.contains c

/-- The characters of a path, with every one beyond the tilde. -/
def isPathCharacter (c : Char) : Bool := '!' ≤ c && !"#<>?`".toList.contains c

/-- The characters of a query, with every one beyond the tilde. -/
def isQueryCharacter (c : Char) : Bool := '!' ≤ c && !"\"#<>".toList.contains c

def endsAuthority (c : Char) : Bool := c = '/' || c = '?' || c = '#'

/-! ## Scheme -/

def splitScheme (s : List Char) : Option (List Char × List Char) :=
  match s.dropWhile isSchemeCharacter with
  | ':' :: '/' :: '/' :: rest => some (s.takeWhile isSchemeCharacter, rest)
  | _ => none

/-- The schemes that are known in any case of letters. -/
def knownSchemes : List String := ["http", "https"]

def takeScheme (s : List Char) : Except Fault (Option String × List Char) :=
  match splitScheme s with
  | none => .ok (none, s)
  | some (scheme, rest) =>
    let known := Text.lower (String.ofList scheme)
    if knownSchemes.contains known then .ok (some known, rest)
    else if s.length ≤ 3 then .ok (none, s)
    else if scheme.length > maxScheme then .error .longScheme
    else .ok (some (String.ofList scheme), rest)

/-! ## Authority -/

/-- What the characters of an authority have shown so far. -/
structure Progress where
  /-- The colons since the last `@` or closing bracket. -/
  colons : Nat
  opened : Bool
  closed : Bool
  /-- Whether a percent sign came since the last `@` or closing bracket. -/
  percent : Bool
  /-- Whether the last character was an `@`. -/
  afterAt : Bool

namespace Progress

def start : Progress := ⟨0, false, false, false, false⟩

def step (p : Progress) (c : Char) : Except Fault Progress :=
  let p := { p with afterAt := c = '@' }
  if c = '%' then .ok { p with percent := true }
  else if !isAuthorityCharacter c then .error .badCharacter
  else if c = ':' then
    if p.colons ≥ maxColons then .error .badAuthority else .ok { p with colons := p.colons + 1 }
  else if c = '[' then
    if p.percent || p.opened then .error .badAuthority else .ok { p with opened := true }
  else if c = ']' then
    if !p.opened || p.closed then .error .badAuthority
    else .ok { p with closed := true, colons := 0, percent := false }
  else if c = '@' then .ok { p with colons := 0, percent := false }
  else .ok p

def mayEnd (p : Progress) : Bool :=
  p.opened == p.closed && p.colons ≤ 1 && !p.afterAt && !p.percent

end Progress

def takeAuthority (s : List Char) : Except Fault (List Char × List Char) := do
  let authority := s.takeWhile (!endsAuthority ·)
  let p ← authority.foldlM Progress.step .start
  if p.mayEnd then return (authority, s.dropWhile (!endsAuthority ·)) else throw .badAuthority

/-! ## Path -/

/-- The path at the beginning of a text, which may have a query and a fragment after it. -/
def takePath (s : List Char) : Except Fault (List Char) :=
  let path := s.takeWhile fun c => c ≠ '?' && c ≠ '#'
  let query :=
    match s.dropWhile fun c => c ≠ '?' && c ≠ '#' with
    | '?' :: rest => rest.takeWhile (· ≠ '#')
    | _ => []
  if path.all isPathCharacter && query.all isQueryCharacter then .ok path
  else .error .badCharacter

/-- The text of a path, of which the empty one is the root. -/
def pathText (path : List Char) : String := if path = [] then "/" else String.ofList path

/-! ## Targets -/

def ofAuthority (s : List Char) (leftOver : Fault) : Except Fault Target := do
  match ← takeAuthority s with
  | (authority, []) => return ⟨none, some (String.ofList authority), ""⟩
  | _ => throw leftOver

def ofAddress (scheme : String) (s : List Char) : Except Fault Target := do
  let (authority, rest) ← takeAuthority s
  if authority.isEmpty then throw .badFormat
  let path ← takePath rest
  return ⟨some scheme, some (String.ofList authority), pathText path⟩

def parse (text : String) : Except Fault Target :=
  if text.utf8ByteSize > maxLength then .error .tooLong
  else
    match text.toList with
    | [] => .error .empty
    | ['*'] => .ok ⟨none, none, "*"⟩
    | [c] => if c = '/' then .ok ⟨none, none, "/"⟩ else ofAuthority [c] .badCharacter
    | '/' :: rest => do return ⟨none, none, pathText (← takePath ('/' :: rest))⟩
    | s => do
      match ← takeScheme s with
      | (some scheme, rest) => ofAddress scheme rest
      | (none, rest) => ofAuthority rest .badFormat

end Target

end MeshControl
