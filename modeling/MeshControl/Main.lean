import MeshControl.CommandLine
import MeshControl.Text.Utf8

/-!
# The program

Reads the arguments and the file that they name, and shows the result.

## Main definitions

* `main`.
-/

namespace MeshControl.Main

/-- What an error of the system says about a file. -/
def problemOf : IO.Error → FileProblem
  | .noFileOrDirectory _ _ _ => .missing
  | .inappropriateType _ code _ => if code = 20 then .notDirectory else .isDirectory
  | .invalidArgument _ 36 _ => .nameTooLong
  | _ => .denied

def readText (path : String) : IO (Except FileProblem String) := do
  try
    let bytes ← IO.FS.readBinFile path
    match Utf8.decode? bytes.toList with
    | some text => return .ok text
    | none => return .error .notText
  catch e => return .error (problemOf e)

/-- The host of this program, on which no socket can be opened. -/
def host : Daemon.Host := fun _ => some .denied

def run (args : List String) : IO UInt32 := do
  match CommandLine.parse args with
  | .error halt => return UInt32.ofNat halt.exitCode
  | .ok invocation =>
    let text ←
      match invocation.configPath? with
      | some path => readText path
      | none => pure (.ok "")
    let result := invocation.perform host text
    IO.print result.output
    IO.eprint result.errors
    return UInt32.ofNat result.exitCode

end MeshControl.Main

def main (args : List String) : IO UInt32 := MeshControl.Main.run args
