import MeshControl.Resource.Labels

/-!
# Destination rules

The subsets of a host name's workloads, each given by labels.

## Main definitions

* `DestinationRule`, `DestinationRule.Subset` — with their written forms.
-/

namespace MeshControl

namespace DestinationRule

structure Subset where
  name : String
  labels : Labels
  deriving DecidableEq, Inhabited

end DestinationRule

structure DestinationRule where
  host : String
  subsets : List DestinationRule.Subset
  deriving DecidableEq, Inhabited

namespace DestinationRule

/-! ## Written form -/

namespace Subset

def toJson (s : Subset) : Json :=
  .object [("name", .string s.name), ("labels", s.labels.toJson)]

def ofJson : Json.Decoder Subset :=
  Json.record ["name", "labels"] fun r =>
    Subset.mk <$> r.required "name" Json.asString <*> r.required "labels" Labels.ofJson

end Subset

def toJson (x : DestinationRule) : Json :=
  .object [("host", .string x.host), ("subsets", .array (x.subsets.map Subset.toJson))]

def ofJson : Json.Decoder DestinationRule :=
  Json.record ["host", "subsets"] fun r =>
    DestinationRule.mk <$> r.required "host" Json.asString
      <*> r.required "subsets" (Json.asList Subset.ofJson)

end DestinationRule

end MeshControl
