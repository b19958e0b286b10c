import MeshControl.Text.Ascii

/-!
# Media types

A media type is written `type/subtype`, perhaps with parameters after a semicolon. A subtype may
end in a plus sign and a suffix that tells the format it is built on.

## Main definitions

* `MediaType` — type, subtype and suffix.
* `MediaType.parse?` — the media type that a text writes.
* `MediaType.isJson` — whether the format is JSON.
-/

namespace MeshControl

structure MediaType where
  type : String
  /-- The subtype without its suffix. -/
  subtype : String
  suffix : Option String
  deriving DecidableEq, Inhabited

namespace MediaType

def isTokenCharacter (c : Char) : Bool :=
  c.isAlpha || c.isDigit || "!#$%&'*+-.^_`|~".toList.contains c

/-- The characters between quotes, among which a backslash is one like any other. -/
def isQuotedCharacter (c : Char) : Bool := ' ' ≤ c && c ≤ '~'

/-! ## Parameters -/

/-- Where a reader stands among the parameters. -/
inductive Place where
  /-- Before a name, where there may be spaces. -/
  | start
  | name
  /-- At the first character of a value. -/
  | value
  | token
  /-- At the first character between quotes. -/
  | quote
  | quoted
  /-- Behind a closing quote. -/
  | closed
  deriving DecidableEq

def Place.step (p : Place) (c : Char) : Option Place :=
  let want (ok : Bool) (next : Place) : Option Place := if ok then some next else none
  match p with
  | .start => if c = ' ' then some .start else want (isTokenCharacter c) .name
  | .name => if c = '=' then some .value else want (isTokenCharacter c) .name
  | .value => if c = '"' then some .quote else want (isTokenCharacter c) .token
  | .token => if c = ';' then some .start else want (isTokenCharacter c) .token
  | .quote => want (isQuotedCharacter c) .quoted
  | .quoted => if c = '"' then some .closed else want (isQuotedCharacter c) .quoted
  | .closed => if c = ';' then some .start else want (c = ' ') .closed

def Place.mayEnd : Place → Bool
  | .start | .value | .token | .closed => true
  | .name | .quote | .quoted => false

def areParameters (s : List Char) : Bool := (s.foldlM Place.step .start).any Place.mayEnd

/-! ## Types -/

/-- A subtype and its suffix. A plus sign at the beginning is part of the subtype. -/
def splitSuffix (s : List Char) : List Char × Option (List Char) :=
  let suffix := (s.reverse.takeWhile (· ≠ '+')).reverse
  let before := s.take (s.length - suffix.length - 1)
  if before = [] then (s, none) else (before, some suffix)

def parse? (text : String) : Option MediaType :=
  let s := text.toList
  let type := s.takeWhile isTokenCharacter
  match type, s.dropWhile isTokenCharacter with
  | _ :: _, '/' :: rest =>
    let subtype := rest.takeWhile isTokenCharacter
    let (before, suffix) := splitSuffix subtype
    let result : MediaType :=
      { type := Text.lower (String.ofList type)
        subtype := Text.lower (String.ofList before)
        suffix := suffix.map fun x => Text.lower (String.ofList x) }
    match subtype, rest.dropWhile isTokenCharacter with
    | _, [] => some result
    | _ :: _, ';' :: parameters => if areParameters parameters then some result else none
    | _, _ => none
  | _, _ => none

def isJson (m : MediaType) : Bool :=
  m.type = "application" && (m.subtype = "json" || m.suffix = some "json")

end MediaType

end MeshControl
