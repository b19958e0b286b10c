import MeshControl.Http.Target
import MeshControl.Text.Quoted

/-!
# The address of the scheduler

The scheduler is given by a request target, of which only the authority is used.

## Main definitions

* `Scheduler.authorityOf` — the authority to connect to, or why there is none.
* `Scheduler.InvalidAddress.message`.
-/

namespace MeshControl.Scheduler

/-- What is wrong with an address. -/
inductive AddressFault where
  | malformed (fault : Target.Fault)
  | unsupportedScheme (scheme : String)
  | missingHost
  deriving DecidableEq, Inhabited

def AddressFault.message : AddressFault → String
  | malformed fault => fault.message
  | unsupportedScheme scheme => s!"unsupported scheme {Text.quote scheme}"
  | missingHost => "missing host"

structure InvalidAddress where
  url : String
  fault : AddressFault
  deriving DecidableEq, Inhabited

def InvalidAddress.message (e : InvalidAddress) : String :=
  s!"invalid scheduler url: {e.url}: {e.fault.message}"

def scheme : String := "http"

/-- The authority of an address. -/
def authorityOf (url : String) : Except InvalidAddress String :=
  match Target.parse url with
  | .error fault => .error ⟨url, .malformed fault⟩
  | .ok target =>
    match target.scheme.filter (· ≠ scheme), target.authority with
    | some other, _ => .error ⟨url, .unsupportedScheme other⟩
    | none, none => .error ⟨url, .missingHost⟩
    | none, some authority => .ok authority

end MeshControl.Scheduler
