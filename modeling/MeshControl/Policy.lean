import MeshControl.Mapping.Basic

/-!
# Traffic policy

An edge lets the workloads of one process send requests to the internal routes of another.

## Main definitions

* `PolicyEdge` — with its written form.
-/

namespace MeshControl

structure PolicyEdge where
  source : ProcessId
  destination : ProcessId
  deriving DecidableEq, Inhabited

namespace PolicyEdge

def toJson (e : PolicyEdge) : Json :=
  .object [("source", .string e.source), ("destination", .string e.destination)]

def ofJson : Json.Decoder PolicyEdge :=
  Json.record ["source", "destination"] fun r =>
    PolicyEdge.mk <$> r.required "source" Json.asString <*> r.required "destination" Json.asString

end PolicyEdge

end MeshControl
