import MeshControl.Json.Basic

/-!
# Decoding JSON values

A decoder takes a value of a domain type out of a JSON value. It fails for one of two causes,
and of several faults in one text it reports the one that comes first.

A record is written as an object, in any order and with members that its type does not know,
or as an array of its members in their order. A member that is known may not be repeated, and
one that is unknown may hold anything that has the form of JSON.

## Main definitions

* `Json.Fault` — why a value is refused.
* `Json.Checked` — the outcome of decoding a record, where a fault has a place.
* `Json.Record` — the members of a record, `Record.required`, `Record.optional` and
  `Record.withDefault`.
* `Json.asString`, `Json.asBool`, `Json.asNat`, `Json.asList`, `Json.asNullable`.
-/

namespace MeshControl.Json

variable {α β : Type}

/-- Why a value is refused. -/
inductive Fault where
  /-- It is JSON of another shape. -/
  | shape
  /-- It is not JSON. -/
  | malformed
  deriving DecidableEq, Inhabited

abbrev Decoder (α : Type) := Json → Except Fault α

/-! ## Scalars and lists -/

/-- The fault of a value that is not of the wanted shape. A broken scalar has no shape. -/
def mismatch : Json → Fault
  | .broken _ => .malformed
  | _ => .shape

def asString : Decoder String
  | .string s => .ok s
  | v => .error (mismatch v)

def asBool : Decoder Bool
  | .bool b => .ok b
  | v => .error (mismatch v)

/-- A natural number below `bound`. -/
def asNat (bound : Nat) : Decoder Nat
  | .number n =>
    match n.toNat? with
    | some k => if k < bound then .ok k else .error .shape
    | none => .error .shape
  | v => .error (mismatch v)

def asPort : Decoder UInt16 := fun v => (asNat UInt16.size v).map UInt16.ofNat

def asWord : Decoder UInt32 := fun v => (asNat UInt32.size v).map UInt32.ofNat

def asList (item : Decoder α) : Decoder (List α)
  | .array items => items.mapM item
  | v => .error (mismatch v)

def asNullable (value : Decoder α) : Decoder (Option α)
  | .null => .ok none
  | v => (value v).map some

/-! ## Faults in order -/

/-- The outcome of decoding part of a record. A fault carries the place where it occurs. -/
inductive Checked (α : Type) where
  | ok (a : α)
  | fault (place : Nat) (cause : Fault)

namespace Checked

/-- Two parts together. Of two faults the earlier one counts. -/
def both (f : Checked (α → β)) (a : Checked α) : Checked β :=
  match f, a with
  | .ok f, .ok a => .ok (f a)
  | .ok _, .fault p c => .fault p c
  | .fault p c, .ok _ => .fault p c
  | .fault p c, .fault q d => if p ≤ q then .fault p c else .fault q d

instance : Applicative Checked where
  pure := .ok
  seq f a := both f (a ())

@[simp] theorem pure_eq_ok (a : α) : (pure a : Checked α) = .ok a := rfl

@[simp] theorem map_ok (f : α → β) (a : α) : f <$> Checked.ok a = .ok (f a) := rfl

@[simp] theorem ok_seq_ok (f : α → β) (a : α) :
    Checked.ok f <*> Checked.ok a = .ok (f a) := rfl

def ofExcept (place : Nat) : Except Fault α → Checked α
  | .ok a => .ok a
  | .error cause => .fault place cause

def toExcept : Checked α → Except Fault α
  | .ok a => .ok a
  | .fault _ cause => .error cause

end Checked

/-! ## Records -/

/-- The members of a record in the order of the text. -/
structure Record where
  members : List (String × Json)

namespace Record

/-- The members with a given name, each with its place. -/
def find (r : Record) (name : String) : List (Nat × Json) :=
  r.members.zipIdx.filterMap fun m => if m.1.1 = name then some (m.2, m.1.2) else none

/-- The member with a given name, or `absent`. Its repetition is a fault. -/
def member (r : Record) (name : String) (value : Decoder α) (absent : Checked α) : Checked α :=
  match r.find name with
  | [] => absent
  | [(place, v)] => .ofExcept place (value v)
  | (place, v) :: (again, _) :: _ =>
    match value v with
    | .ok _ => .fault again .shape
    | .error cause => .fault place cause

def required (r : Record) (name : String) (value : Decoder α) : Checked α :=
  r.member name value (.fault r.members.length .shape)

def optional (r : Record) (name : String) (value : Decoder α) : Checked (Option α) :=
  r.member name (asNullable value) (.ok none)

def withDefault (r : Record) (name : String) (a : α) (value : Decoder α) : Checked α :=
  r.member name value (.ok a)

/-- The place where the text breaks off inside a member that is not known, or where a name
denotes no text. Inside of such a member names are not looked at. -/
def unknown (r : Record) (names : List String) : Checked Unit :=
  match r.members.zipIdx.find? fun m =>
    !names.contains m.1.1 && (m.1.2.endsBroken || m.1.2.isNameless) with
  | some m => .fault m.2 .malformed
  | none => .ok ()

end Record

/-- The members of a record with the given member names. More items in an array than there are
names leave the array without the end that it needs there. -/
def asRecord (names : List String) : Decoder Record
  | .object members => .ok ⟨members⟩
  | .array items =>
    .ok ⟨names.zip items ++ if names.length < items.length then [("", .broken .cut)] else []⟩
  | v => .error (mismatch v)

def record (names : List String) (body : Record → Checked α) : Decoder α := fun v => do
  let r ← asRecord names v
  (Checked.both ((fun _ a => a) <$> r.unknown names) (body r)).toExcept

/-! ## Variants -/

/-- One of several words. A word may also be the name of a single null member. -/
def asWordOf (words : List (String × α)) : Decoder α
  | .string s => (words.lookup s).elim (.error .shape) .ok
  | .object [(s, .null)] => (words.lookup s).elim (.error .shape) .ok
  | v => .error (mismatch v)

/-- The value of the only member of an object, which has the given name. -/
def asTagged (name : String) (value : Decoder α) : Decoder α
  | .object [(s, v)] => if s = name then value v else .error .shape
  | v => .error (mismatch v)

end MeshControl.Json
