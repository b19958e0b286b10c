import MeshControl.Json.Decode

/-!
# Certificates

A certificate is known by the host names it is for and by the places of its two files.

## Main definitions

* `Certificate` — with its written form.
-/

namespace MeshControl

structure Certificate where
  hosts : List String
  certPath : String
  keyPath : String
  deriving DecidableEq, Inhabited

namespace Certificate

def toJson (c : Certificate) : Json :=
  .object
    [("hosts", .array (c.hosts.map .string)), ("cert_path", .string c.certPath),
     ("key_path", .string c.keyPath)]

def ofJson : Json.Decoder Certificate :=
  Json.record ["hosts", "cert_path", "key_path"] fun r =>
    Certificate.mk <$> r.required "hosts" (Json.asList Json.asString)
      <*> r.required "cert_path" Json.asString <*> r.required "key_path" Json.asString

end Certificate

end MeshControl
