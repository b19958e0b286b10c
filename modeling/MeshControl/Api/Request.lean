import MeshControl.Http.MediaType
import MeshControl.Json.Decode
import MeshControl.Json.Reader

/-!
# Requests

What a caller sends: a method, a path and perhaps a body.

## Main definitions

* `Api.Request`.
* `Api.Request.decode` — the value in a body.
-/

namespace MeshControl.Api

structure Request where
  method : String
  /-- The path as it is sent, in percent-encoding. -/
  path : String
  contentType : Option String
  body : List UInt8
  deriving DecidableEq, Inhabited

/-- Why a body is not taken. -/
inductive BodyFault where
  /-- It is not said to be JSON. -/
  | mediaType
  | tooLarge
  | malformed
  | shape
  deriving DecidableEq, Inhabited

/-- The longest body, in bytes. -/
def maxBody : Nat := 2097152

namespace Request

def isJson (r : Request) : Bool :=
  (r.contentType.bind MediaType.parse?).any MediaType.isJson

/-- The value in the body. A value of the wrong shape is found before anything behind it. -/
def decode {α : Type} (r : Request) (value : Json.Decoder α) : Except BodyFault α :=
  if !r.isJson then .error .mediaType
  else if r.body.length > maxBody then .error .tooLarge
  else
    let reading := Json.read r.body
    match value reading.value with
    | .error .shape => .error .shape
    | .error .malformed => .error .malformed
    | .ok a => if reading.trailing then .error .malformed else .ok a

end Request

end MeshControl.Api
