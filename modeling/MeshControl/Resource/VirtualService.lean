import MeshControl.Json.Decode

/-!
# Virtual services

How the requests for a host name are spread over subsets of its workloads: rules for path
prefixes, of which the first that matches counts.

## Main definitions

* `VirtualService`, `VirtualService.Rule`, `VirtualService.Destination` — with their written
  forms.
* `VirtualService.Rule.applies` — whether a rule applies to a request.
-/

namespace MeshControl

namespace VirtualService

/-- A condition on the path of a request. -/
inductive PathMatch where
  | beginsWith (text : String)
  deriving DecidableEq, Inhabited

/-- Workloads of a host name, with a port. -/
structure Target where
  host : String
  subset : String
  port : Option UInt32
  deriving DecidableEq, Inhabited

/-- A target with its share of the requests. -/
structure Destination where
  target : Target
  weight : UInt32
  deriving DecidableEq, Inhabited

/-- How often and when a request is tried again. -/
structure Retries where
  attempts : UInt32
  retryOn : String
  deriving DecidableEq, Inhabited

structure Rule where
  /-- The conditions, of which one has to hold. A rule without conditions applies always. -/
  conditions : List PathMatch
  destinations : List Destination
  retries : Option Retries
  timeout : Option String
  deriving DecidableEq, Inhabited

end VirtualService

structure VirtualService where
  hosts : List String
  gateways : List String
  rules : List VirtualService.Rule
  deriving DecidableEq, Inhabited

namespace VirtualService

/-! ## Matching -/

def PathMatch.holds (path : String) : PathMatch → Bool
  | beginsWith text => text.toList.isPrefixOf path.toList

def Rule.applies (r : Rule) (path : String) : Bool :=
  r.conditions.isEmpty || r.conditions.any (PathMatch.holds path)

/-- The rule that a request for a path meets. -/
def ruleFor? (s : VirtualService) (path : String) : Option Rule := s.rules.find? (·.applies path)

/-! ## Written form -/

namespace PathMatch

def toJson : PathMatch → Json
  | beginsWith text => .object [("uri", .object [("prefix", .string text)])]

def ofJson : Json.Decoder PathMatch :=
  Json.record ["uri"] fun r =>
    PathMatch.beginsWith <$> r.required "uri" (Json.asTagged "prefix" Json.asString)

end PathMatch

namespace Target

def portToJson (number : UInt32) : Json := .object [("number", .ofNat number.toNat)]

def portOfJson : Json.Decoder UInt32 :=
  Json.record ["number"] fun r => r.required "number" Json.asWord

def toJson (t : Target) : Json :=
  .object (Json.present
    [("host", some (.string t.host)), ("subset", some (.string t.subset)),
     ("port", t.port.map portToJson)])

def ofJson : Json.Decoder Target :=
  Json.record ["host", "subset", "port"] fun r =>
    Target.mk <$> r.required "host" Json.asString <*> r.required "subset" Json.asString
      <*> r.optional "port" portOfJson

end Target

namespace Destination

def toJson (d : Destination) : Json :=
  .object [("destination", d.target.toJson), ("weight", .ofNat d.weight.toNat)]

def ofJson : Json.Decoder Destination :=
  Json.record ["destination", "weight"] fun r =>
    Destination.mk <$> r.required "destination" Target.ofJson
      <*> r.required "weight" Json.asWord

end Destination

namespace Retries

def toJson (x : Retries) : Json :=
  .object [("attempts", .ofNat x.attempts.toNat), ("retryOn", .string x.retryOn)]

def ofJson : Json.Decoder Retries :=
  Json.record ["attempts", "retryOn"] fun r =>
    Retries.mk <$> r.required "attempts" Json.asWord <*> r.required "retryOn" Json.asString

end Retries

namespace Rule

def toJson (x : Rule) : Json :=
  .object (Json.present
    [("match", Json.unlessEmpty (x.conditions.map PathMatch.toJson)),
     ("route", some (.array (x.destinations.map Destination.toJson))),
     ("retries", x.retries.map Retries.toJson),
     ("timeout", x.timeout.map .string)])

def ofJson : Json.Decoder Rule :=
  Json.record ["match", "route", "retries", "timeout"] fun r =>
    Rule.mk <$> r.withDefault "match" [] (Json.asList PathMatch.ofJson)
      <*> r.required "route" (Json.asList Destination.ofJson)
      <*> r.optional "retries" Retries.ofJson <*> r.optional "timeout" Json.asString

end Rule

def toJson (s : VirtualService) : Json :=
  .object (Json.present
    [("hosts", some (.array (s.hosts.map .string))),
     ("gateways", Json.unlessEmpty (s.gateways.map .string)),
     ("http", some (.array (s.rules.map Rule.toJson)))])

def ofJson : Json.Decoder VirtualService :=
  Json.record ["hosts", "gateways", "http"] fun r =>
    VirtualService.mk <$> r.required "hosts" (Json.asList Json.asString)
      <*> r.withDefault "gateways" [] (Json.asList Json.asString)
      <*> r.required "http" (Json.asList Rule.ofJson)

end VirtualService

end MeshControl
