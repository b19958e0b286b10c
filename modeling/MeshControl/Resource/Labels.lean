import MeshControl.Json.Decode
import MeshControl.Table

/-!
# Labels and ports

Parts that several kinds of resources share.

## Main definitions

* `Labels` — texts by name, with their written form.
* `Port` — a named port of a protocol.
-/

namespace MeshControl

open Std

/-- Texts by name. -/
abbrev Labels := Table String String

namespace Labels

def toJson (t : Labels) : Json := .object (t.entries.map fun e => (e.1, .string e.2))

end Labels

/-- A table with the values of an object's members. Of members with one name the last counts. -/
def Json.asTable {α : Type} (value : Json.Decoder α) : Json.Decoder (Table String α)
  | .object members => do
    let entries ← members.mapM fun m => (value m.2).map (m.1, ·)
    return Table.ofList entries
  | v => .error (Json.mismatch v)

def Labels.ofJson : Json.Decoder Labels := Json.asTable Json.asString

def processLabel : String := "meshsync.io/process"

def Labels.ofProcess (id : String) : Labels := (∅ : Labels).insert processLabel id

structure Port where
  number : UInt32
  protocol : String
  name : String
  deriving DecidableEq, Inhabited

namespace Port

def http (number : UInt32) (name : String) : Port := ⟨number, "http", name⟩

def toJson (p : Port) : Json :=
  .object [("number", .ofNat p.number.toNat), ("protocol", .string p.protocol),
    ("name", .string p.name)]

def ofJson : Json.Decoder Port :=
  Json.record ["number", "protocol", "name"] fun r =>
    Port.mk <$> r.required "number" Json.asWord <*> r.required "protocol" Json.asString
      <*> r.required "name" Json.asString

end Port

end MeshControl
