import MeshControl.Double

/-!
# Shares in percent

The share of a weight in a sum is a quotient and a product, each rounded as floating-point
numbers are. The result is then rounded to an integer, a half upwards.

## Main definitions

* `percentage` — the share of a weight.
-/

namespace MeshControl

/-- The share of `weight` in `sum`, in percent. The only weight of a sum of zero has it all. -/
def percentage (weight : UInt32) (sum : Nat) : UInt32 :=
  if sum = 0 then 100
  else
    let share := ((Double.ofNat weight.toNat).div (Double.ofNat sum)).scale 100
    UInt32.ofNat (min share.round (UInt32.size - 1))

@[simp] theorem percentage_zero (weight : UInt32) : percentage weight 0 = 100 := rfl

end MeshControl
