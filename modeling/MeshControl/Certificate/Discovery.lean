import MeshControl.Certificate.Basic
import MeshControl.FileTree
import MeshControl.Text.Ascii

/-!
# Discovery of certificates

Certificates are given one by one, or found in a directory that has a directory for every host
name, with a certificate file and a key file in it.

## Main definitions

* `Certificate.Source` — where certificates come from.
* `Certificate.ofDirectory` — the certificates found in a directory, in the order of the hosts.
* `Certificate.locate` — the certificates of several sources.
-/

namespace MeshControl.Certificate

def certFile : String := "tls.crt"

def keyFile : String := "tls.key"

/-- Why certificates cannot be found. -/
inductive Missing where
  | unreadable (root : String) (problem : FileProblem)
  /-- The name of a directory is not text. -/
  | unusableName (path : String)
  deriving DecidableEq, Inhabited

def Missing.message : Missing → String
  | unreadable root problem =>
    s!"failed to read certificate directory {root}: {problem.message}"
  | unusableName path => s!"certificate directory {path} has no usable host name"

inductive Source where
  | fixed (certificates : List Certificate)
  | directory (root : String) (tree : Option FileTree)
  deriving Inhabited

def isComplete (tree : FileTree) : Bool :=
  [certFile, keyFile].all fun name => (tree.entry? (Utf8.encode name)).any (·.isFile)

/-- The path of an entry of a directory, whose own path may end with a slash. -/
def entryPath (root name : String) : String :=
  if root = "" || Text.hasSuffix "/" root then root ++ name else s!"{root}/{name}"

/-- The certificate in one entry of a directory. Files and incomplete directories hold none. -/
def ofEntry (root : String) (entry : FileName × FileTree) : Except Missing (Option Certificate) :=
  if entry.2.isFile then .ok none
  else
    match Utf8.decode? entry.1 with
    | none =>
      .error (.unusableName (entryPath root (String.ofList (Utf8.decodeLossy entry.1))))
    | some name =>
      if isComplete entry.2 then
        .ok (some
          { hosts := [Text.lower name]
            certPath := s!"{entryPath root name}/{certFile}"
            keyPath := s!"{entryPath root name}/{keyFile}" })
      else .ok none

def hostsLe (a b : Certificate) : Bool := (compare a.hosts b.hosts).isLE

/-- The certificates in the entries of a directory, in the order of their hosts. -/
def ofEntries (root : String) (entries : List (FileName × FileTree)) :
    Except Missing (List Certificate) := do
  let found ← entries.mapM (ofEntry root)
  return (found.filterMap id).mergeSort hostsLe

def ofDirectory (root : String) (tree : Option FileTree) : Except Missing (List Certificate) :=
  match FileTree.list tree with
  | .error problem => .error (.unreadable root problem)
  | .ok entries => ofEntries root entries

def ofSource : Source → Except Missing (List Certificate)
  | .fixed certificates => .ok certificates
  | .directory root tree => ofDirectory root tree

/-- The certificates of several sources in order. If one fails all do. -/
def locate (sources : List Source) : Except Missing (List Certificate) := do
  return (← sources.mapM ofSource).flatten

end MeshControl.Certificate
