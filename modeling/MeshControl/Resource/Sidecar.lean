import MeshControl.Resource.Labels

/-!
# Sidecars

Which hosts the workloads with certain labels may send requests to.

## Main definitions

* `Sidecar` — with its written form.
-/

namespace MeshControl

structure Sidecar where
  /-- The labels of the workloads. Without them it stands for all that no other one is for. -/
  selector : Option Labels
  /-- The hosts of every listener. -/
  egress : List (List String)
  deriving DecidableEq, Inhabited

namespace Sidecar

/-! ## Written form -/

def selectorToJson (labels : Labels) : Json := .object [("labels", labels.toJson)]

def selectorOfJson : Json.Decoder Labels :=
  Json.record ["labels"] fun r => r.required "labels" Labels.ofJson

def listenerToJson (hosts : List String) : Json := .object [("hosts", .array (hosts.map .string))]

def listenerOfJson : Json.Decoder (List String) :=
  Json.record ["hosts"] fun r => r.required "hosts" (Json.asList Json.asString)

def toJson (s : Sidecar) : Json :=
  .object (Json.present
    [("workloadSelector", s.selector.map selectorToJson),
     ("egress", some (.array (s.egress.map listenerToJson)))])

def ofJson : Json.Decoder Sidecar :=
  Json.record ["workloadSelector", "egress"] fun r =>
    Sidecar.mk <$> r.optional "workloadSelector" selectorOfJson
      <*> r.required "egress" (Json.asList listenerOfJson)

end Sidecar

end MeshControl
