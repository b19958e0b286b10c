import MeshControl.Json.Token

/-!
# Reading JSON

A value is built from the elements of its text with a stack of the arrays and objects that are
still open. Where an element does not fit, the value is cut: every open array and object closes
around a broken part that marks the place.

## Main definitions

* `Json.Reading` — what a text holds: a value, and whether more than spaces follows it.
* `Json.read`, `Json.readText` — the reading of bytes and of a text.
* `Json.parse?` — the value of a text that is JSON from beginning to end.
-/

namespace MeshControl.Json

/-- An array or object that is still open. What it holds so far is listed in reverse. -/
inductive Frame where
  | items (before : List Json)
  | members (before : List (String × Json)) (name : String)

/-- Where the reader stands inside the open arrays and objects. -/
inductive Place where
  /-- A value comes next. -/
  | value
  /-- A value comes next, or the end of an array without items. -/
  | firstItem
  /-- A name comes next. The members before it are listed in reverse. -/
  | name (before : List (String × Json))
  /-- A name comes next, or the end of an object without members. -/
  | firstName
  /-- The colon after a name comes next. -/
  | colon (before : List (String × Json)) (name : String)
  /-- A value has just ended. -/
  | after (v : Json)

/-- What a text holds. -/
structure Reading where
  value : Json
  /-- Whether more than spaces follows the value. -/
  trailing : Bool
  deriving DecidableEq

def close (v : Json) : List Frame → Json
  | [] => v
  | .items before :: frames => close (.array (v :: before).reverse) frames
  | .members before name :: frames => close (.object ((name, v) :: before).reverse) frames

def cutAt (frames : List Frame) : Place → Reading
  | .name before =>
    ⟨close (.object (("", .broken .cut) :: before).reverse) frames, false⟩
  | .firstName => ⟨close (.object [("", .broken .cut)]) frames, false⟩
  | .colon before name =>
    ⟨close (.object ((name, .broken .cut) :: before).reverse) frames, false⟩
  | .after v =>
    match frames with
    | [] => ⟨v, false⟩
    | .items before :: rest => ⟨close (.array (.broken .cut :: v :: before).reverse) rest, false⟩
    | .members before name :: rest =>
      ⟨close (.object (("", .broken .cut) :: (name, v) :: before).reverse) rest, false⟩
  | .value | .firstItem => ⟨close (.broken .cut) frames, false⟩

/-- The value that a single element is. -/
def Token.scalar? : Token → Option Json
  | .null => some .null
  | .bool b => some (.bool b)
  | .number n => some (.number n)
  | .string s => some (.string s)
  | .garbledText | .garbledNumber => some (.broken .garbled)
  | _ => none

/-- The place after the name of a member. -/
def Token.named? (before : List (String × Json)) : Token → Option Place
  | .string name => some (.colon before name)
  | .garbledText => some (.colon (("", .broken .nameless) :: before) "")
  | _ => none

/-- The frames and the place after an element, or nothing where it does not fit. -/
def step (frames : List Frame) (place : Place) (t : Token) : Option (List Frame × Place) :=
  match place with
  | .value | .firstItem =>
    match t with
    | .openArray => some (.items [] :: frames, .firstItem)
    | .openObject => some (frames, .firstName)
    | .closeArray =>
      match place, frames with
      | .firstItem, .items [] :: rest => some (rest, .after (.array []))
      | _, _ => none
    | t => t.scalar?.map (frames, .after ·)
  | .name before => (t.named? before).map (frames, ·)
  | .firstName =>
    match t with
    | .closeObject => some (frames, .after (.object []))
    | t => (t.named? []).map (frames, ·)
  | .colon before name =>
    match t with
    | .colon => some (.members before name :: frames, .value)
    | _ => none
  | .after v =>
    match frames, t with
    | .items before :: rest, .comma => some (.items (v :: before) :: rest, .value)
    | .items before :: rest, .closeArray => some (rest, .after (.array (v :: before).reverse))
    | .members before name :: rest, .comma => some (rest, .name ((name, v) :: before))
    | .members before name :: rest, .closeObject =>
      some (rest, .after (.object ((name, v) :: before).reverse))
    | _, _ => none

def build (frames : List Frame) (place : Place) : List Token → Reading
  | [] => cutAt frames place
  | t :: rest =>
    match frames, place with
    | [], .after v => ⟨v, true⟩
    | _, _ =>
      match step frames place t with
      | some (frames, place) => build frames place rest
      | none => cutAt frames place

def read (bytes : List UInt8) : Reading := build [] .value (Token.scan bytes)

def readText (s : String) : Reading := read (Utf8.encode s)

/-- The value of a text that is JSON from beginning to end. -/
def parse? (s : String) : Option Json :=
  let r := readText s
  if r.trailing || !r.value.isWhole then none else some r.value

end MeshControl.Json
