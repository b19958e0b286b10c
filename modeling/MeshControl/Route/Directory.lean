import MeshControl.Route.Basic
import MeshControl.SortedSet
import MeshControl.Table

/-!
# The directory of routes

Routes are stored under their ids, with their hosts in lower case. Beside them an index lists
the ids of the routes of every host name, since routes with different paths share one.

## Main definitions

* `Route.Directory` — the routes and the index.
* `Directory.upsert`, `Directory.delete`, `Directory.sync` — changes.
* `Directory.get?`, `Directory.list`, `Directory.vipOf?` — questions.
-/

namespace MeshControl.Route

structure Directory where
  byId : Table RouteId Route
  byHostname : Table String (SortedSet RouteId)
  deriving DecidableEq, Inhabited

namespace Directory

def empty : Directory := ⟨∅, ∅⟩

instance : EmptyCollection Directory := ⟨empty⟩

/-! ## The index -/

def index (t : Table String (SortedSet RouteId)) (host : String) (id : RouteId) :
    Table String (SortedSet RouteId) :=
  t.insert host (((t.get? host).getD ∅).insert id)

/-- Take an id from those of a host name, and the host name with its last id. -/
def unindex (t : Table String (SortedSet RouteId)) (host : String) (id : RouteId) :
    Table String (SortedSet RouteId) :=
  match t.get? host with
  | none => t
  | some ids =>
    let left := ids.erase id
    if left.isEmpty then t.erase host else t.insert host left

/-! ## Changes -/

def upsert (d : Directory) (r : Route) : Directory :=
  let r := { r with host := r.hostname }
  let byHostname := match d.byId.get? r.id with
    | some previous =>
      if previous.host = r.host then d.byHostname else unindex d.byHostname previous.host r.id
    | none => d.byHostname
  ⟨d.byId.insert r.id r, index byHostname r.host r.id⟩

def delete (d : Directory) (id : RouteId) : Directory :=
  match d.byId.get? id with
  | some r => ⟨d.byId.erase id, unindex d.byHostname r.host id⟩
  | none => d

/-- The directory of a list of routes, of which a later one takes the place of an earlier one
with its id. -/
def ofList (routes : List Route) : Directory := routes.foldl upsert empty

def sync (_ : Directory) (routes : List Route) : Directory := ofList routes

/-! ## Questions -/

def get? (d : Directory) (id : RouteId) : Option Route := d.byId.get? id

/-- The routes in the order of their ids. -/
def list (d : Directory) : List Route := d.byId.values

def size (d : Directory) : Nat := d.byId.size

/-- A host name as it is looked up: without the points at its end, and in lower case. -/
def lookupName (hostname : String) : String := Text.lower (Text.trimEnd '.' hostname)

/-- The virtual address of a host name: that of the first of its routes with one. -/
def vipOf? (d : Directory) (hostname : String) : Option String :=
  (d.byHostname.get? (lookupName hostname)).bind fun ids =>
    ids.toList.findSome? fun id => (d.byId.get? id).bind (·.vip)

@[simp] theorem get?_empty (id : RouteId) : empty.get? id = none := rfl

theorem get?_upsert (d : Directory) (r : Route) (id : RouteId) :
    (d.upsert r).get? id =
      if id = r.id then some { r with host := r.hostname } else d.get? id := by
  simp only [upsert, get?, Table.get?_insert, Std.LawfulEqCmp.compare_eq_iff_eq]

theorem get?_delete (d : Directory) (id id' : RouteId) :
    (d.delete id).get? id' = if id' = id then none else d.get? id' := by
  simp only [delete, get?]
  split
  · simp only [Table.get?_erase, Std.LawfulEqCmp.compare_eq_iff_eq]
  · rename_i h
    split
    · rename_i e
      rw [e, h]
    · rfl

end Directory

end MeshControl.Route
