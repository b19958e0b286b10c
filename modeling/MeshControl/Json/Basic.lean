/-!
# JSON values

The members of an object keep the order and the repetitions of the text they were read from,
since a reader may have to refuse a repeated member. A text that stops being JSON part of the
way is still read up to that point, so a value may also hold a `broken` part. Nothing that is
written holds one.

## Main definitions

* `Json`, `Json.Number` — values, and numbers as they are written.
* `Json.endsBroken` — whether reading stopped inside the value.
* `Json.isWhole`, `Json.fits` — no broken part at all, and bounded nesting.
-/

namespace MeshControl

/-- A number literal: a sign, the digits before the point, and the fraction and exponent as
they are written. -/
structure Json.Number where
  negative : Bool
  whole : Nat
  tail : String
  deriving DecidableEq, Inhabited

/-- Why a part of a text has no value. -/
inductive Json.Defect where
  /-- A literal of the right form that denotes nothing: a number beyond all bounds, or a string
  with half a surrogate pair or with bytes that encode no character. -/
  | garbled
  /-- The name of a member denotes no text. The value of the member follows under an empty
  name. -/
  | nameless
  /-- The text ends here, or goes on with something that JSON does not allow. -/
  | cut
  deriving DecidableEq, Inhabited

inductive Json where
  | null
  | bool (b : Bool)
  | number (n : Json.Number)
  | string (s : String)
  | array (items : List Json)
  | object (members : List (String × Json))
  | broken (how : Json.Defect)
  deriving Inhabited

namespace Json

/-! ## Equality -/

mutual

def decEq : (a b : Json) → Decidable (a = b)
  | .null, b => match b with
    | .null => isTrue rfl
    | .bool _ | .number _ | .string _ | .array _ | .object _ | .broken _ => isFalse nofun
  | .bool x, b => match b with
    | .bool y => decidable_of_iff (x = y) (by simp)
    | .null | .number _ | .string _ | .array _ | .object _ | .broken _ => isFalse nofun
  | .number x, b => match b with
    | .number y => decidable_of_iff (x = y) (by simp)
    | .null | .bool _ | .string _ | .array _ | .object _ | .broken _ => isFalse nofun
  | .string x, b => match b with
    | .string y => decidable_of_iff (x = y) (by simp)
    | .null | .bool _ | .number _ | .array _ | .object _ | .broken _ => isFalse nofun
  | .array x, b => match b with
    | .array y =>
      have := decEqItems x y
      decidable_of_iff (x = y) (by simp)
    | .null | .bool _ | .number _ | .string _ | .object _ | .broken _ => isFalse nofun
  | .object x, b => match b with
    | .object y =>
      have := decEqMembers x y
      decidable_of_iff (x = y) (by simp)
    | .null | .bool _ | .number _ | .string _ | .array _ | .broken _ => isFalse nofun
  | .broken x, b => match b with
    | .broken y => decidable_of_iff (x = y) (by simp)
    | .null | .bool _ | .number _ | .string _ | .array _ | .object _ => isFalse nofun

def decEqItems : (a b : List Json) → Decidable (a = b)
  | [], b => match b with
    | [] => isTrue rfl
    | _ :: _ => isFalse nofun
  | x :: xs, b => match b with
    | [] => isFalse nofun
    | y :: ys =>
      have := decEq x y
      have := decEqItems xs ys
      decidable_of_iff (x = y ∧ xs = ys) (by simp)

def decEqMembers : (a b : List (String × Json)) → Decidable (a = b)
  | [], b => match b with
    | [] => isTrue rfl
    | _ :: _ => isFalse nofun
  | (k, x) :: xs, b => match b with
    | [] => isFalse nofun
    | (l, y) :: ys =>
      have := decEq x y
      have := decEqMembers xs ys
      decidable_of_iff (k = l ∧ x = y ∧ xs = ys) (by simp [and_assoc])

end

instance : DecidableEq Json := decEq

/-! ## Broken parts -/

/-- Whether the last part of the value is where its text was cut. Reading goes from left to
right, so no other part can be. -/
def endsBroken : Json → Bool
  | .broken .cut => true
  | .array items => lastItem items
  | .object members => lastMember members
  | _ => false
where
  lastItem : List Json → Bool
    | [] => false
    | [v] => v.endsBroken
    | _ :: rest => lastItem rest
  lastMember : List (String × Json) → Bool
    | [] => false
    | [(_, v)] => v.endsBroken
    | _ :: rest => lastMember rest

/-- Whether the value stands for a name that denotes no text. -/
def isNameless : Json → Bool
  | .broken .nameless => true
  | _ => false

/-- Whether the value nests arrays and objects at most `depth` deep. -/
def fits (depth : Nat) : Json → Bool
  | .array items => match depth with
    | 0 => false
    | d + 1 => fitItems d items
  | .object members => match depth with
    | 0 => false
    | d + 1 => fitMembers d members
  | _ => true
where
  fitItems (d : Nat) : List Json → Bool
    | [] => true
    | v :: rest => v.fits d && fitItems d rest
  fitMembers (d : Nat) : List (String × Json) → Bool
    | [] => true
    | (_, v) :: rest => v.fits d && fitMembers d rest

def isWhole : Json → Bool
  | .broken _ => false
  | .array items => wholeItems items
  | .object members => wholeMembers members
  | _ => true
where
  wholeItems : List Json → Bool
    | [] => true
    | v :: rest => v.isWhole && wholeItems rest
  wholeMembers : List (String × Json) → Bool
    | [] => true
    | (_, v) :: rest => v.isWhole && wholeMembers rest

/-! ## Numbers and members -/

def ofNat (n : Nat) : Json := .number ⟨false, n, ""⟩

/-- The natural number a literal is, if it is written without sign, fraction and exponent. -/
def Number.toNat? (n : Number) : Option Nat :=
  if n.negative || n.tail ≠ "" then none else some n.whole

@[simp] theorem Number.toNat?_mk (n : Nat) : (Number.mk false n "").toNat? = some n := by
  simp [Number.toNat?]

/-- The value of the first member with the given name. -/
def member? (name : String) : Json → Option Json
  | .object members => members.lookup name
  | _ => none

/-- A member list without the members that are absent. -/
def present (members : List (String × Option Json)) : List (String × Json) :=
  members.filterMap fun m => m.2.map (m.1, ·)

/-- An array that is left out when it has no items. -/
def unlessEmpty : List Json → Option Json
  | [] => none
  | items => some (.array items)

end Json

end MeshControl
