import MeshControl.Text.Hex

/-!
# Percent-encoding

A path segment writes a byte as a percent sign and two hexadecimal digits. A percent sign
without two digits after it stands for itself.

## Main definitions

* `Percent.encode`, `Percent.decode`.
-/

namespace MeshControl.Percent

open Text

def encode (bytes : List UInt8) : List UInt8 :=
  bytes.flatMap fun b =>
    [0x25, UInt8.ofNat (hexDigit (b.toNat / 16)), UInt8.ofNat (hexDigit (b.toNat % 16))]

def decode : List UInt8 → List UInt8
  | [] => []
  | [a] => [a]
  | [a, b] => [a, b]
  | a :: b :: c :: rest =>
    if a = 0x25 then
      match hexValue? b.toNat, hexValue? c.toNat with
      | some x, some y => UInt8.ofNat (16 * x + y) :: decode rest
      | _, _ => a :: decode (b :: c :: rest)
    else a :: decode (b :: c :: rest)

theorem decode_encode_cons (b : UInt8) (rest : List UInt8) :
    decode (0x25 :: UInt8.ofNat (hexDigit (b.toNat / 16)) ::
      UInt8.ofNat (hexDigit (b.toNat % 16)) :: rest) = b :: decode rest := by
  have hb : b.toNat < 256 := b.toNat_lt
  have toNat_digit : ∀ n, n < 16 → (UInt8.ofNat (hexDigit n)).toNat = hexDigit n := by
    intro n hn
    simp only [UInt8.toNat_ofNat', hexDigit]
    split <;> omega
  rw [decode, if_pos rfl, toNat_digit _ (by omega), toNat_digit _ (by omega),
    hexValue?_hexDigit (by omega), hexValue?_hexDigit (by omega)]
  simp only
  congr 1
  rw [show 16 * (b.toNat / 16) + b.toNat % 16 = b.toNat by omega]
  exact UInt8.ofNat_toNat

theorem decode_encode (bytes : List UInt8) : decode (encode bytes) = bytes := by
  induction bytes with
  | nil => rfl
  | cons b bytes ih =>
    rw [encode, List.flatMap_cons, ← encode]
    exact (decode_encode_cons b (encode bytes)).trans (by rw [ih])

end MeshControl.Percent
