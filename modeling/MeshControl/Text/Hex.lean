/-!
# Hexadecimal digits

## Main definitions

* `Text.hexValue?` — the value of one digit, of either case.
* `Text.bytesOfHex?` — the bytes written as pairs of digits.
-/

namespace MeshControl.Text

/-- The value of a hexadecimal digit given as its code. -/
def hexValue? (n : Nat) : Option Nat :=
  if 48 ≤ n ∧ n ≤ 57 then some (n - 48)
  else if 65 ≤ n ∧ n ≤ 70 then some (n - 55)
  else if 97 ≤ n ∧ n ≤ 102 then some (n - 87)
  else none

/-- The code of the digit with value `n`, a letter in upper case. -/
def hexDigit (n : Nat) : Nat := if n < 10 then 48 + n else 55 + n

theorem hexValue?_hexDigit {n : Nat} (h : n < 16) : hexValue? (hexDigit n) = some n := by
  simp only [hexValue?, hexDigit]
  split <;> (repeat' split) <;> simp_all <;> omega

def bytesOfHex? : List Char → Option (List UInt8)
  | [] => some []
  | [_] => none
  | a :: b :: rest =>
    match hexValue? a.toNat, hexValue? b.toNat, bytesOfHex? rest with
    | some x, some y, some bytes => some (UInt8.ofNat (16 * x + y) :: bytes)
    | _, _, _ => none

end MeshControl.Text
