import Mathlib
import MeshControl.Double

/-!
# Rounding to 53 bits

Every operation on numbers gives a number that is off by a small part of the exact result at most,
and whole numbers of up to 53 bits are there exactly. An integer that is nearest to a result is at
most one half off.

## Main definitions

* `Double.toRat` — the value of a number.
* `Double.roundoff` — the greatest part by which rounding changes a number.
* `Double.abs_toRat_ofQuotient_sub_le` — a quotient is rounded by that part at most.
-/

namespace MeshControl.Double

/-- The value of a number. -/
def toRat (x : Double) : ℚ := x.mantissa * 2 ^ x.up / 2 ^ x.down

/-- The greatest part by which rounding changes a number. -/
def roundoff : ℚ := 1 / 2 ^ precision

theorem roundoff_pos : 0 < roundoff := by
  unfold roundoff
  positivity

theorem cast_binary (k : Nat) : (binary k : ℚ) = 2 ^ k := Nat.cast_pow 2 k

theorem binary_mul_binary (a b : Nat) : binary a * binary b = binary (a + b) :=
  (Nat.pow_add 2 a b).symm

/-! ## Quotients -/

theorem abs_divRound_sub_le (n : Nat) {d : Nat} (pos : 0 < d) :
    |(divRound n d : ℚ) - n / d| ≤ 1 / 2 := by
  have hd : (0 : ℚ) < d := Nat.cast_pos.mpr pos
  have exact : (n : ℚ) / d = (n / d : Nat) + (n % d : Nat) / d := by
    have parts : (n : ℚ) = d * (n / d : Nat) + (n % d : Nat) := by
      exact_mod_cast (Nat.div_add_mod n d).symm
    field_simp
    exact parts
  have nonneg : (0 : ℚ) ≤ (n % d : Nat) / d := by positivity
  have below : ((n % d : Nat) : ℚ) / d < 1 := by
    rw [div_lt_one hd]
    exact_mod_cast Nat.mod_lt n pos
  rw [exact, abs_le]
  simp only [divRound]
  split_ifs with low high
  · have : ((n % d : Nat) : ℚ) / d < 1 / 2 := by
      rw [div_lt_div_iff₀ hd two_pos]
      exact_mod_cast (by omega : n % d * 2 < 1 * d)
    constructor <;> linarith
  · have : (1 : ℚ) / 2 < (n % d : Nat) / d := by
      rw [div_lt_div_iff₀ two_pos hd]
      exact_mod_cast (by omega : 1 * d < n % d * 2)
    push_cast
    constructor <;> linarith
  · have : ((n % d : Nat) : ℚ) / d = 1 / 2 := by
      rw [div_eq_div_iff hd.ne' two_ne_zero]
      exact_mod_cast (by omega : n % d * 2 = 1 * d)
    obtain last | last := Nat.mod_two_eq_zero_or_one (n / d) <;> rw [last] <;> push_cast <;>
      constructor <;> linarith

/-- A quotient that has 53 bits in its scale is rounded by a small part of it. -/
theorem abs_toRat_ofScaled_sub_le (n : Nat) {d : Nat} (pos : 0 < d) (up down : Nat)
    (bits : binary (precision - 1) * (d * binary down) ≤ n * binary up) :
    |(ofScaled n d up down).toRat - n / d| ≤ n / d * roundoff := by
  have scaled := abs_divRound_sub_le (n * binary up) (Nat.mul_pos pos (binary_pos down))
  have whole : (2 : ℚ) ^ (precision - 1) * (d * 2 ^ down) ≤ n * 2 ^ up := by
    simp only [← cast_binary]
    exact_mod_cast bits
  have unit : (2 : ℚ) ^ down / 2 ^ up / 2 ≤ n / d * roundoff := by
    rw [roundoff, precision, div_div, mul_one_div, div_div,
      div_le_div_iff₀ (by positivity) (by positivity)]
    rw [precision] at whole
    norm_num at whole ⊢
    linarith
  calc |(ofScaled n d up down).toRat - n / d|
      = |(divRound (n * binary up) (d * binary down) : ℚ) -
          (n * binary up : Nat) / (d * binary down : Nat)| * (2 ^ down / 2 ^ up) := by
        rw [← abs_of_pos (show (0 : ℚ) < 2 ^ down / 2 ^ up by positivity), ← abs_mul, sub_mul]
        congr 2
        · rw [toRat, ofScaled, mul_div_assoc]
        · push_cast
          rw [cast_binary, cast_binary]
          field_simp
    _ ≤ 1 / 2 * (2 ^ down / 2 ^ up) := mul_le_mul_of_nonneg_right scaled (by positivity)
    _ = 2 ^ down / 2 ^ up / 2 := by ring
    _ ≤ n / d * roundoff := unit

/-- A quotient has at least 53 bits in the scale that its parts suggest. -/
theorem bits_le_of_log2 {n : Nat} (hn : n ≠ 0) (d : Nat) :
    binary (precision - 1) * (d * binary (n.log2 - (precision + d.log2))) ≤
      n * binary (precision + d.log2 - n.log2) := by
  have least : binary n.log2 ≤ n := Nat.log2_self_le hn
  have below : d ≤ binary (d.log2 + 1) := Nat.lt_log2_self.le
  calc binary (precision - 1) * (d * binary (n.log2 - (precision + d.log2)))
      ≤ binary (precision - 1) * (binary (d.log2 + 1) * binary (n.log2 - (precision + d.log2))) :=
        Nat.mul_le_mul_left _ (Nat.mul_le_mul_right _ below)
    _ = binary n.log2 * binary (precision + d.log2 - n.log2) := by
        simp only [binary_mul_binary]
        congr 1
        rw [precision]
        omega
    _ ≤ n * binary (precision + d.log2 - n.log2) := Nat.mul_le_mul_right _ least

/-- A quotient is rounded by a small part of it. -/
theorem abs_toRat_ofQuotient_sub_le (n : Nat) {d : Nat} (hd : d ≠ 0) :
    |(ofQuotient n d).toRat - n / d| ≤ n / d * roundoff := by
  have pos : 0 < d := Nat.pos_of_ne_zero hd
  unfold ofQuotient
  split_ifs with zero
  · obtain rfl := zero.resolve_right hd
    simp [toRat]
  obtain ⟨hn, -⟩ := not_or.mp zero
  have bits := bits_le_of_log2 hn d
  set up := precision + d.log2 - n.log2
  set down := n.log2 - (precision + d.log2)
  have double : ∀ k, binary (k + 1) = 2 * binary k := fun k => Nat.pow_succ'
  have full : ¬ n * binary up / (d * binary down) < binary precision →
      2 * (binary (precision - 1) * (d * binary down)) ≤ n * binary up := by
    intro many
    rw [not_lt, Nat.le_div_iff_mul_le (Nat.mul_pos pos (binary_pos down))] at many
    rw [← mul_assoc, ← double]
    exact many
  simp only
  split_ifs with few up_pos
  · exact abs_toRat_ofScaled_sub_le n pos up down bits
  · refine abs_toRat_ofScaled_sub_le n pos (up - 1) down ?_
    have more := full few
    obtain ⟨k, hk⟩ := Nat.exists_eq_succ_of_ne_zero up_pos.ne'
    rw [hk, Nat.succ_eq_add_one, double] at more
    rw [hk, Nat.succ_sub_one]
    linarith
  · refine abs_toRat_ofScaled_sub_le n pos up (down + 1) ?_
    rw [double]
    linarith [full few]

/-! ## Operations -/

theorem divRound_one (n : Nat) : divRound n 1 = n := by
  simp [divRound, Nat.mod_one]

/-- Whole numbers of up to 53 bits are not rounded. -/
theorem toRat_ofNat {n : Nat} (small : n < binary precision) : (ofNat n).toRat = n := by
  by_cases zero : n = 0
  · simp [zero, ofNat, ofQuotient, toRat]
  have bits : n.log2 < precision := (Nat.log2_lt zero).mpr small
  have up : precision + Nat.log2 1 - n.log2 = precision - n.log2 := rfl
  have down : n.log2 - (precision + Nat.log2 1) = 0 := Nat.sub_eq_zero_of_le bits.le
  have many : ¬ n * binary (precision - n.log2) / (1 * binary 0) < binary precision := by
    have least : binary n.log2 ≤ n := Nat.log2_self_le zero
    have power : binary n.log2 * binary (precision - n.log2) = binary precision := by
      rw [binary_mul_binary, Nat.add_sub_cancel' bits.le]
    rw [show 1 * binary 0 = 1 from rfl, Nat.div_one, not_lt, ← power]
    exact Nat.mul_le_mul_right _ least
  have whole : divRound (n * binary (precision - n.log2 - 1)) (1 * binary 0) =
      n * binary (precision - n.log2 - 1) := divRound_one _
  rw [ofNat, ofQuotient, if_neg (by simp [zero])]
  simp only [up, down, many, if_false, Nat.sub_pos_of_lt bits, if_true, ofScaled, whole]
  rw [toRat]
  push_cast
  rw [cast_binary]
  field_simp

theorem abs_toRat_div_sub_le (x : Double) {y : Double} (hy : y.toRat ≠ 0) :
    |(x.div y).toRat - x.toRat / y.toRat| ≤ x.toRat / y.toRat * roundoff := by
  have divisor : y.mantissa ≠ 0 := by
    rintro zero
    simp [toRat, zero] at hy
  have exact : ((x.mantissa * binary (x.up + y.down) : Nat) : ℚ) /
      (y.mantissa * binary (y.up + x.down) : Nat) = x.toRat / y.toRat := by
    push_cast
    rw [cast_binary, cast_binary, toRat, toRat, pow_add, pow_add]
    field_simp
  rw [← exact]
  exact abs_toRat_ofQuotient_sub_le _ (Nat.mul_ne_zero divisor (binary_pos _).ne')

theorem abs_toRat_scale_sub_le (x : Double) (k : Nat) :
    |(x.scale k).toRat - x.toRat * k| ≤ x.toRat * k * roundoff := by
  have exact : ((x.mantissa * k * binary x.up : Nat) : ℚ) / binary x.down = x.toRat * k := by
    push_cast
    rw [cast_binary, cast_binary, toRat]
    ring
  rw [← exact]
  exact abs_toRat_ofQuotient_sub_le _ (binary_pos x.down).ne'

/-- The nearest integer is at most one half off. -/
theorem abs_round_sub_le (x : Double) : |(x.round : ℚ) - x.toRat| ≤ 1 / 2 := by
  have scale : (0 : ℚ) < 2 ^ x.down := by positivity
  have least : (x.round : ℚ) * (2 * 2 ^ x.down) ≤ 2 * (x.mantissa * 2 ^ x.up) + 2 ^ x.down := by
    simp only [← cast_binary]
    exact_mod_cast Nat.div_mul_le_self _ _
  have most : 2 * (x.mantissa * 2 ^ x.up) + 2 ^ x.down < 2 * 2 ^ x.down * ((x.round : ℚ) + 1) := by
    simp only [← cast_binary]
    exact_mod_cast Nat.lt_mul_div_succ _ (Nat.mul_pos two_pos (binary_pos x.down))
  have exact : x.mantissa * 2 ^ x.up = x.toRat * 2 ^ x.down := (div_mul_cancel₀ _ scale.ne').symm
  rw [exact] at least most
  rw [abs_le]
  constructor
  · have := lt_of_mul_lt_mul_right (show (x.toRat * 2 + 1) * 2 ^ x.down <
      (2 * x.round + 2) * 2 ^ x.down by linarith) scale.le
    linarith
  · have := le_of_mul_le_mul_right (show (2 * x.round : ℚ) * 2 ^ x.down ≤
      (x.toRat * 2 + 1) * 2 ^ x.down by linarith) scale
    linarith

end MeshControl.Double
