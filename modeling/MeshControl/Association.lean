import MeshControl.Invalid
import MeshControl.Json.Decode
import MeshControl.Mapping.Basic
import MeshControl.SortedSet
import MeshControl.Table

/-!
# Associations of processes

An association names the scheduler processes that run a routing process.

## Main definitions

* `Association` — an association, with its written form.
* `Association.validate` — whether it can be taken.
* `Association.Directory` — the associations stored under their process ids.
-/

namespace MeshControl

abbrev SchedulerId := String

structure Association where
  processId : ProcessId
  schedulerIds : SortedSet SchedulerId
  deriving DecidableEq, Inhabited

namespace Association

def validate (a : Association) : Except Invalid Unit :=
  if a.processId = "" ∨ a.schedulerIds.toList = [] then .error .associationUnnamed
  else if "" ∈ a.schedulerIds.toList then .error .emptySchedulerId
  else .ok ()

/-! ## Written form -/

def idsJson (ids : SortedSet SchedulerId) : Json := .array (ids.toList.map .string)

def toJson (a : Association) : Json :=
  .object [("process_id", .string a.processId),
    ("scheduler_process_ids", idsJson a.schedulerIds)]

def ofJson : Json.Decoder Association :=
  Json.record ["process_id", "scheduler_process_ids"] fun r =>
    Association.mk <$> r.required "process_id" Json.asString
      <*> r.required "scheduler_process_ids" fun v =>
        SortedSet.ofList <$> Json.asList Json.asString v

/-! ## The directory -/

structure Directory where
  byProcess : Table ProcessId (SortedSet SchedulerId)
  deriving DecidableEq, Inhabited

namespace Directory

def empty : Directory := ⟨∅⟩

instance : EmptyCollection Directory := ⟨empty⟩

/-- Store an association in place of the one of its process. -/
def upsert (d : Directory) (a : Association) : Directory :=
  ⟨d.byProcess.insert a.processId a.schedulerIds⟩

def delete (d : Directory) (id : ProcessId) : Directory := ⟨d.byProcess.erase id⟩

/-- The directory of a list of associations, of which a later one takes the place of an earlier
one of its process. -/
def ofList (associations : List Association) : Directory := associations.foldl upsert empty

def sync (_ : Directory) (associations : List Association) : Directory := ofList associations

def get? (d : Directory) (id : ProcessId) : Option (SortedSet SchedulerId) := d.byProcess.get? id

/-- The associations in the order of their processes. -/
def list (d : Directory) : List Association := d.byProcess.entries.map fun e => ⟨e.1, e.2⟩

def size (d : Directory) : Nat := d.byProcess.size

theorem get?_upsert (d : Directory) (a : Association) (id : ProcessId) :
    (d.upsert a).get? id = if id = a.processId then some a.schedulerIds else d.get? id := by
  simp only [upsert, get?, Table.get?_insert, Std.LawfulEqCmp.compare_eq_iff_eq]

theorem get?_delete (d : Directory) (id id' : ProcessId) :
    (d.delete id).get? id' = if id' = id then none else d.get? id' := by
  simp only [delete, get?, Table.get?_erase, Std.LawfulEqCmp.compare_eq_iff_eq]

end Directory

end Association

end MeshControl
