import MeshControl.Toml.Value

/-!
# Decoding TOML values

A section is written as a table, or as an array of its members in their order. Its members are
taken one after the other, so that the first fault of a text is the one that is reported.

## Main definitions

* `Toml.Fault` — why a value is refused.
* `Toml.asString`, `Toml.asNat`, `Toml.asList` — decoders.
* `Toml.members` — the members of a section.
-/

namespace MeshControl.Toml

/-- Why a value is refused, with a sentence about it where there is one. -/
structure Fault where
  detail : Option String
  deriving DecidableEq, Inhabited

def Fault.plain : Fault := ⟨none⟩

abbrev Decoder (α : Type) := Toml → Except Fault α

def asString : Decoder String
  | .string s => .ok s
  | _ => .error .plain

def asNat (bound : Nat) : Decoder Nat
  | .integer n => if 0 ≤ n && n.toNat < bound then .ok n.toNat else .error .plain
  | _ => .error .plain

def asList {α : Type} (item : Decoder α) : Decoder (List α)
  | .array items => items.mapM item
  | _ => .error .plain

/-- The members of a section with the given names. In an array, items beyond the names are not
looked at. -/
def members (names : List String) : Decoder (List (String × Toml))
  | .table members => .ok members
  | .array items => .ok (names.zip items)
  | _ => .error .plain

def required {α : Type} : Option α → Except Fault α
  | some a => .ok a
  | none => .error .plain

end MeshControl.Toml
