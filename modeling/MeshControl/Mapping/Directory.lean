import MeshControl.Mapping.Basic
import MeshControl.Mapping.Percentage
import MeshControl.Table

/-!
# The directory of mappings

Mappings are stored under their keys. Beside them stands, for every route with a mapping, the
sum of the weights of its mappings, which is kept up with every change.

## Main definitions

* `RouteMapping.Directory` — the mappings and the sums.
* `Directory.map`, `Directory.unmap`, `Directory.sync` — changes.
* `Directory.get?`, `Directory.list`, `Directory.denominator`, `Directory.share` — questions.
-/

namespace MeshControl.RouteMapping

structure Directory where
  byKey : Table MappingKey RouteMapping
  sums : Table RouteId Nat
  deriving DecidableEq, Inhabited

namespace Directory

def empty : Directory := ⟨∅, ∅⟩

instance : EmptyCollection Directory := ⟨empty⟩

/-! ## Changes -/

/-- Take a mapping that is no longer stored out of the sum of its route, and the sum with the
last mapping of the route. -/
def subtract (d : Directory) (m : RouteMapping) : Directory :=
  match d.sums.get? m.routeId with
  | none => d
  | some sum =>
    let left := sum - m.weight.toNat
    if left = 0 ∧ ¬ d.byKey.keys.any (·.routeId = m.routeId) then
      { d with sums := d.sums.erase m.routeId }
    else { d with sums := d.sums.insert m.routeId left }

def unmap (d : Directory) (k : MappingKey) : Directory :=
  match d.byKey.get? k with
  | some m => subtract { d with byKey := d.byKey.erase k } m
  | none => d

def map (d : Directory) (m : RouteMapping) : Directory :=
  let d := d.unmap m.key
  ⟨d.byKey.insert m.key m,
   d.sums.insert m.routeId ((d.sums.get? m.routeId).getD 0 + m.weight.toNat)⟩

/-- The directory of a list of mappings, of which a later one takes the place of an earlier one
with its key. -/
def ofList (mappings : List RouteMapping) : Directory := mappings.foldl map empty

def sync (_ : Directory) (mappings : List RouteMapping) : Directory := ofList mappings

/-! ## Questions -/

def get? (d : Directory) (k : MappingKey) : Option RouteMapping := d.byKey.get? k

/-- The mappings in the order of their keys. -/
def list (d : Directory) : List RouteMapping := d.byKey.values

def size (d : Directory) : Nat := d.byKey.size

def denominator (d : Directory) (route : RouteId) : Nat := (d.sums.get? route).getD 0

/-- The share that a mapping has, or would have with its weight, in the requests of its route,
in percent. -/
def share (d : Directory) (m : RouteMapping) : UInt32 :=
  percentage m.weight (d.denominator m.routeId)

@[simp] theorem byKey_subtract (d : Directory) (m : RouteMapping) :
    (d.subtract m).byKey = d.byKey := by
  simp only [subtract]
  split
  · rfl
  · split <;> rfl

theorem get?_unmap (d : Directory) (k k' : MappingKey) :
    (d.unmap k).get? k' = if k' = k then none else d.get? k' := by
  simp only [unmap, get?]
  split
  · simp only [byKey_subtract, Table.get?_erase, Std.LawfulEqCmp.compare_eq_iff_eq]
  · rename_i h
    split
    · rename_i e
      rw [e, h]
    · rfl

theorem get?_map (d : Directory) (m : RouteMapping) (k : MappingKey) :
    (d.map m).get? k = if k = m.key then some m else d.get? k := by
  have h := get?_unmap d m.key k
  simp only [get?] at h
  simp only [map, get?, Table.get?_insert, Std.LawfulEqCmp.compare_eq_iff_eq, h]
  split <;> rfl

end Directory

end MeshControl.RouteMapping
