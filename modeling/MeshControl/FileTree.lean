import MeshControl.Text.Ascii
import MeshControl.Text.Utf8

/-!
# File trees

What can be found below a directory. Names are bytes, which need not be text.

## Main definitions

* `FileTree` — a file or a directory.
* `FileTree.ofPaths` — the directory that holds given files and directories.
* `FileTree.find`, `FileTree.readText`, `FileTree.list` — look-ups, each with its failures.
-/

namespace MeshControl

/-- Why a file or a directory cannot be used. -/
inductive FileProblem where
  | missing
  | denied
  | notDirectory
  | isDirectory
  | nameTooLong
  /-- The bytes of a file encode no text. -/
  | notText
  deriving DecidableEq, Inhabited

namespace FileProblem

def message : FileProblem → String
  | missing => "No such file or directory (os error 2)"
  | denied => "Permission denied (os error 13)"
  | notDirectory => "Not a directory (os error 20)"
  | isDirectory => "Is a directory (os error 21)"
  | nameTooLong => "File name too long (os error 36)"
  | notText => "stream did not contain valid UTF-8"

end FileProblem

abbrev FileName := List UInt8

/-- The longest name of a file, in bytes. -/
def FileName.maxLength : Nat := 255

inductive FileTree where
  | file (text : String)
  /-- The entries are in the order in which they are enumerated. -/
  | dir (entries : List (FileName × FileTree))
  deriving Inhabited

namespace FileTree

/-! ## Building -/

/-- Put a tree at a path below a list of entries. Directories on the way are made. -/
def place (leaf : FileTree) : (path : List FileName) → List (FileName × FileTree) →
    List (FileName × FileTree)
  | [], entries => entries
  | [name], entries =>
    if (entries.lookup name).isSome then entries else entries ++ [(name, leaf)]
  | name :: rest, entries =>
    match entries.lookup name with
    | some (.dir inner) =>
      entries.map fun e => if e.1 = name then (name, .dir (place leaf rest inner)) else e
    | _ => entries ++ [(name, .dir (place leaf rest []))]

/-- The parts of a path, of which empty ones and dots say nothing. -/
def components (path : String) : List String := Text.split '/' path

def namesOf (path : String) : List FileName :=
  ((components path).filter fun c => c ≠ "" && c ≠ ".").map Utf8.encode

/-- The directory that holds trees at given paths. -/
def ofPaths (items : List (List FileName × FileTree)) : FileTree :=
  .dir (items.foldl (fun entries item => place item.2 item.1 entries) [])

/-! ## Look-ups -/

def isFile : FileTree → Bool
  | .file _ => true
  | .dir _ => false

def entry? (name : FileName) : FileTree → Option FileTree
  | .dir entries => entries.lookup name
  | .file _ => none

/-- Follow the parts of a path from a tree, with the directories that it was reached through. Above
the root is the root. -/
def walk (here : FileTree) (above : List FileTree) : List String → Except FileProblem FileTree
  | [] => .ok here
  | part :: rest =>
    match here with
    | .file _ => .error .notDirectory
    | .dir entries =>
      if part = "" || part = "." then walk here above rest
      else if part = ".." then
        match above with
        | [] => walk here [] rest
        | parent :: higher => walk parent higher rest
      else if (Utf8.encode part).length > FileName.maxLength then .error .nameTooLong
      else
        match entries.lookup (Utf8.encode part) with
        | none => .error .missing
        | some inner => walk inner (here :: above) rest

/-- The longest path, in bytes. -/
def maxPathLength : Nat := 4095

/-- What a path leads to: from the root of the tree if it begins with a slash, and otherwise from
the directory at the place `here`. -/
def find (root : FileTree) (here : List String) (path : String) : Except FileProblem FileTree :=
  if path = "" then .error .missing
  else if path.utf8ByteSize > maxPathLength then .error .nameTooLong
  else if Text.hasPrefix "/" path then walk root [] (components path)
  else walk root [] (here ++ components path)

def readText (root : FileTree) (here : List String) (path : String) :
    Except FileProblem String := do
  match ← root.find here path with
  | .file text => return text
  | .dir _ => throw .isDirectory

def list : Option FileTree → Except FileProblem (List (FileName × FileTree))
  | none => .error .missing
  | some (.file _) => .error .notDirectory
  | some (.dir entries) => .ok entries

end FileTree

end MeshControl
