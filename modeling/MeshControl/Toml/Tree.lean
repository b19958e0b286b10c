import MeshControl.Toml.Value

/-!
# Tables under construction

While a text is read its tables are open, and each remembers how it came to be, since that decides
what may still be added to it.

## Main definitions

* `Toml.Node` — a part of an open table.
* `Toml.alter` — a change of the table at the end of a path.
* `Toml.addPair`, `Toml.openTable`, `Toml.openItem` — the effects of the parts of a text.
-/

namespace MeshControl.Toml

/-- How a table came to be. -/
inductive Origin where
  /-- It is on the way to a table that was stated. -/
  | implied
  /-- It is on the way to a member with dots in its name. -/
  | dotted
  /-- It was stated itself. -/
  | stated
  deriving DecidableEq, Inhabited

inductive Node where
  /-- Nothing can be added to it. -/
  | closed (v : Toml)
  | table (origin : Origin) (members : List (String × Node))
  /-- An array of tables, of which the last one is open. -/
  | tables (items : List (List (String × Node)))
  deriving Inhabited

abbrev Members := List (String × Node)

/-! ## Closing -/

mutual

def Node.toToml : Node → Toml
  | .closed v => v
  | .table _ members => .table (membersToToml members)
  | .tables items => .array (itemsToToml items)

def membersToToml : List (String × Node) → List (String × Toml)
  | [] => []
  | (name, node) :: rest => (name, node.toToml) :: membersToToml rest

def itemsToToml : List (List (String × Node)) → List Toml
  | [] => []
  | members :: rest => .table (membersToToml members) :: itemsToToml rest

end

/-! ## Changing -/

def replaceMember (members : Members) (name : String) (node : Node) : Members :=
  members.map fun m => if m.1 = name then (name, node) else m

/-- Change the table at the end of a path. Tables on the way that are missing are made. A path
with dots in a member's name does not lead through tables that were stated. -/
def alter (byDots : Bool) (change : Origin → Members → Option Members) :
    (path : List String) → Origin → Members → Option Members
  | [], origin, members => change origin members
  | name :: rest, _, members =>
    match members.lookup name with
    | none =>
      let origin := if byDots then .dotted else .implied
      (alter byDots change rest origin []).map fun inner =>
        members ++ [(name, .table origin inner)]
    | some (.closed _) => none
    | some (.table origin inner) =>
      if byDots && origin = .stated then none
      else
        (alter byDots change rest origin inner).map fun inner =>
          replaceMember members name (.table origin inner)
    | some (.tables items) =>
      match items.getLast? with
      | none => none
      | some last =>
        (alter byDots change rest .stated last).map fun last =>
          replaceMember members name (.tables (items.dropLast ++ [last]))

/-- Add a member to a table, which has to have come to be in the way that the name tells. -/
def addMember (throughDots : Bool) (name : String) (v : Toml) (origin : Origin)
    (members : Members) : Option Members :=
  if (origin = .dotted) ≠ throughDots || (members.lookup name).isSome then none
  else some (members ++ [(name, .closed v)])

/-- Add a member with a name that may have dots in it. -/
def addPair (path : List String) (name : String) (v : Toml) (origin : Origin)
    (members : Members) : Option Members :=
  alter true (addMember (path ≠ []) name v) path origin members

/-- Open a table that was not stated before. -/
def openTable (name : String) (_ : Origin) (members : Members) : Option Members :=
  match members.lookup name with
  | none => some (members ++ [(name, .table .stated [])])
  | some (.table .implied inner) =>
    some (members.filter (·.1 ≠ name) ++ [(name, .table .stated inner)])
  | _ => none

def openItem (name : String) (_ : Origin) (members : Members) : Option Members :=
  match members.lookup name with
  | none => some (members ++ [(name, .tables [[]])])
  | some (.tables items) => some (replaceMember members name (.tables (items ++ [[]])))
  | _ => none

end MeshControl.Toml
