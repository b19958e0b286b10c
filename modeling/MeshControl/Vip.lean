import MeshControl.Digest.Sha256
import MeshControl.Text.Ascii
import MeshControl.Text.Utf8

/-!
# Virtual addresses

An internal host name without an address of its own gets one that depends on the name alone.
It lies in 127.0.0.0/8, so it never collides with a routable address, and the last two bits of
its last byte are set, so it is not 127.0.0.1.

## Main definitions

* `Ipv4`, `Ipv4.text` — an address and its dotted form.
* `Vip.ofHostname` — the address of a host name, whatever the case of its letters.
-/

namespace MeshControl

/-- An address of four bytes. -/
structure Ipv4 where
  a : UInt8
  b : UInt8
  c : UInt8
  d : UInt8
  deriving DecidableEq, Inhabited

def Ipv4.text (ip : Ipv4) : String :=
  s!"{ip.a.toNat}.{ip.b.toNat}.{ip.c.toNat}.{ip.d.toNat}"

namespace Vip

/-- The address that three bytes of a digest determine. -/
def ofDigest : List UInt8 → Ipv4
  | x :: y :: z :: _ => ⟨127, z, y, x ||| 3⟩
  | _ => ⟨127, 0, 0, 3⟩

def ofHostname (hostname : String) : Ipv4 :=
  ofDigest (Digest.sha256 (Utf8.encode (Text.lower hostname)))

end Vip

end MeshControl
