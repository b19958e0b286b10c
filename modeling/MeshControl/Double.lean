/-!
# Binary floating point

Non-negative numbers with 53 significant bits, computed exactly. Every operation rounds to the
nearest number of that precision, and of two equally near ones to the one with an even last
digit.

## Main definitions

* `Double` — a number.
* `Double.ofQuotient` — the nearest one to a quotient.
* `Double.div`, `Double.scale` — a quotient and a product.
* `Double.round` — the nearest integer.
* `Double.isFinite` — whether a decimal number is in range.
* `Double.floor`, `Double.productIsFinite` — the whole part, and the range of a product.
-/

namespace MeshControl

/-- The number `mantissa * 2 ^ up / 2 ^ down`. -/
structure Double where
  mantissa : Nat
  up : Nat
  down : Nat
  deriving DecidableEq, Inhabited

namespace Double

def precision : Nat := 53

def binary (k : Nat) : Nat := Nat.pow 2 k

def decimal (k : Nat) : Nat := Nat.pow 10 k

theorem binary_pos (k : Nat) : 0 < binary k := Nat.pow_pos (by decide)

/-- The integer nearest to `n / d`, and the even one of two. -/
def divRound (n d : Nat) : Nat :=
  let q := n / d
  let r := n % d
  if 2 * r < d then q
  else if d < 2 * r then q + 1
  else q + q % 2

/-- The quotient `n * 2 ^ up / (d * 2 ^ down)` as a number with the scale that gives its
mantissa 53 bits. -/
def ofScaled (n d up down : Nat) : Double :=
  ⟨divRound (n * binary up) (d * binary down), down, up⟩

/-- The number with 53 significant bits that is nearest to `n / d`. -/
def ofQuotient (n d : Nat) : Double :=
  if n = 0 ∨ d = 0 then ⟨0, 0, 0⟩
  else
    let up := precision + d.log2 - n.log2
    let down := n.log2 - (precision + d.log2)
    if n * binary up / (d * binary down) < binary precision then ofScaled n d up down
    else if 0 < up then ofScaled n d (up - 1) down
    else ofScaled n d up (down + 1)

/-- The product with a natural number, rounded to 53 bits. -/
def scale (x : Double) (k : Nat) : Double :=
  ofQuotient (x.mantissa * k * binary x.up) (binary x.down)

def div (x y : Double) : Double :=
  ofQuotient (x.mantissa * binary (x.up + y.down)) (y.mantissa * binary (y.up + x.down))

def ofNat (n : Nat) : Double := ofQuotient n 1

/-- The nearest integer, and the greater one of two. -/
def round (x : Double) : Nat :=
  (2 * (x.mantissa * binary x.up) + binary x.down) / (2 * binary x.down)

/-! ## Range -/

/-- The least integer that rounds to infinity. -/
def overflow : Nat := binary 1024 - binary 970

/-- An exponent beyond which only zero stays in range. -/
def maxExponent : Nat := 400

/-- Whether `mantissa * 10 ^ exponent / 10 ^ fraction`, or with a negative exponent
`mantissa / 10 ^ (exponent + fraction)`, is nearer to a number than to infinity. A long exponent
decides without being computed. -/
def isFinite (mantissa : Nat) (negativeExponent : Bool) (exponent fraction : Nat) : Bool :=
  if mantissa = 0 then true
  else if negativeExponent then
    mantissa / decimal (min (exponent + fraction) (mantissa.log2 + 1)) < overflow
  else if exponent ≤ fraction then mantissa / decimal (fraction - exponent) < overflow
  else if exponent - fraction > maxExponent then false
  else mantissa * decimal (exponent - fraction) < overflow

def floor (x : Double) : Nat := x.mantissa * binary x.up / binary x.down

/-- Whether the product of two whole numbers, each of them rounded first, is nearer to a number
than to infinity. -/
def productIsFinite (m n : Nat) : Bool := (ofNat m).floor * (ofNat n).floor < overflow

end Double

end MeshControl
