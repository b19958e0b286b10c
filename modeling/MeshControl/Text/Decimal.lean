/-!
# Decimal digits

## Main definitions

* `Text.natOfDigits` — the number that digits write.
* `Text.decimal?` — the number that a text writes, if it holds digits alone.
-/

namespace MeshControl.Text

def natOfDigits (digits : List Char) : Nat :=
  digits.foldl (fun n c => 10 * n + (c.toNat - 48)) 0

/-- The number that a text of one or more decimal digits writes. -/
def decimal? (s : List Char) : Option Nat :=
  if s ≠ [] && s.all Char.isDigit then some (natOfDigits s) else none

theorem decimal?_eq_some_iff {s : List Char} {n : Nat} :
    decimal? s = some n ↔ s ≠ [] ∧ (∀ c ∈ s, c.isDigit = true) ∧ natOfDigits s = n := by
  simp [decimal?, and_assoc]

end MeshControl.Text
