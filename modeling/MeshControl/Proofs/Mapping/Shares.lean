import Mathlib
import MeshControl.Proofs.Double
import MeshControl.Proofs.Mapping.Sums

/-!
# Nearest shares

The share of a weight is rounded three times: as a quotient, as a number of percent and to an
integer. The first two roundings are so small that they move no share across the middle between two
integers, which has a distance from every share that is not there. Only a share right in the
middle can go either way, and then both integers are nearest.

## Main statements

* `abs_percentage_sub_le_of_room` — a percentage is an integer nearest to the share.
* `percentage_le_hundred_iff` — when a small weight has more than a hundred percent of a sum.
* `RouteMapping.Directory.shares_nearest` — so it is for all mappings of a route, and their
  percentages sum up to about a hundred.
-/

namespace MeshControl

/-! ## Nearest integers -/

/-- An integer that is nearest to a number close to a fraction is nearest to the fraction. -/
theorem abs_sub_div_le_of_near {s n d : Nat} {x : ℚ} (pos : 0 < d) (nearest : |s - x| ≤ 1 / 2)
    (near : |x - n / d| < 1 / (2 * d)) : |(s : ℚ) - n / d| ≤ 1 / 2 := by
  have hd : (0 : ℚ) < d := Nat.cast_pos.mpr pos
  have scaled : |((s * d - n : ℤ) : ℚ)| = |(s : ℚ) - n / d| * d := by
    rw [← abs_of_pos hd, ← abs_mul, abs_of_pos hd, sub_mul, div_mul_cancel₀ _ hd.ne']
    push_cast
    rfl
  have close : |(s : ℚ) - n / d| * (2 * d) < d + 1 := by
    have triangle := abs_sub_le (s : ℚ) x (n / d)
    have below : |(s : ℚ) - n / d| < 1 / 2 + 1 / (2 * d) := by linarith
    calc |(s : ℚ) - n / d| * (2 * d)
        < (1 / 2 + 1 / (2 * d)) * (2 * d) := mul_lt_mul_of_pos_right below (by positivity)
      _ = d + 1 := by field_simp
  -- Both sides are integers after this, so that the small rest disappears.
  have whole : 2 * |(s * d - n : ℤ)| ≤ d := by
    refine Int.lt_add_one_iff.mp ?_
    have : (2 * |(s * d - n : ℤ)| : ℚ) < d + 1 := by
      push_cast at scaled ⊢
      linarith
    exact_mod_cast this
  have : (2 * |(s * d - n : ℤ)| : ℚ) ≤ d := by exact_mod_cast whole
  rw [le_div_iff₀ two_pos]
  refine le_of_mul_le_mul_right ?_ hd
  push_cast at scaled this
  linarith

theorem le_of_abs_sub_le_half {s k : Nat} {x : ℚ} (nearest : |(s : ℚ) - x| ≤ 1 / 2) (le : x ≤ k) :
    s ≤ k := by
  have : (s : ℚ) < k + 1 := by linarith [(abs_le.mp nearest).2]
  exact Nat.lt_add_one_iff.mp (by exact_mod_cast this)

/-- Nearest integers are in the order of the numbers that they are nearest to. -/
theorem le_of_abs_sub_le_half_of_lt {s s' : Nat} {x x' : ℚ} (nearest : |(s : ℚ) - x| ≤ 1 / 2)
    (nearest' : |(s' : ℚ) - x'| ≤ 1 / 2) (lt : x < x') : s ≤ s' := by
  have : (s : ℚ) < s' + 1 := by linarith [(abs_le.mp nearest).2, (abs_le.mp nearest').1]
  exact Nat.lt_add_one_iff.mp (by exact_mod_cast this)

/-- Integers that are nearest to numbers sum up to what is near to their sum. -/
theorem abs_sum_sub_sum_le {α : Type} {f g : α → ℚ} {l : List α}
    (near : ∀ a ∈ l, |f a - g a| ≤ 1 / 2) : |(l.map f).sum - (l.map g).sum| ≤ l.length / 2 := by
  induction l with
  | nil => simp
  | cons a l ih =>
    have rest := ih fun b hb => near b (List.mem_cons_of_mem _ hb)
    have first := near a List.mem_cons_self
    calc |((a :: l).map f).sum - ((a :: l).map g).sum|
        = |(f a - g a) + ((l.map f).sum - (l.map g).sum)| := by
          rw [List.map_cons, List.map_cons, List.sum_cons, List.sum_cons, add_sub_add_comm]
      _ ≤ |f a - g a| + |(l.map f).sum - (l.map g).sum| := abs_add_le _ _
      _ ≤ (a :: l).length / 2 := by
          push_cast [List.length_cons]
          linarith

/-! ## One share -/

namespace Double

/-- The two roundings of a share move it by a small part of it. -/
theorem abs_toRat_share_sub_le {w : Nat} {y : Double} (small : w < binary precision)
    (pos : 0 < y.toRat) :
    |(((ofNat w).div y).scale 100).toRat - 100 * (w / y.toRat)| ≤
      w / y.toRat * (201 * roundoff) := by
  have tiny : roundoff ≤ 1 / 100 := by norm_num [roundoff, precision]
  have quotient := abs_toRat_div_sub_le (ofNat w) pos.ne'
  have product := abs_toRat_scale_sub_le ((ofNat w).div y) 100
  rw [toRat_ofNat small] at quotient
  set q := ((ofNat w).div y).toRat
  set x := (w : ℚ) / y.toRat
  have nonneg : 0 ≤ x := by positivity
  have first : |q * 100 - 100 * x| ≤ x * (100 * roundoff) := by
    rw [show q * 100 - 100 * x = 100 * (q - x) by ring, abs_mul, abs_of_pos (by norm_num)]
    linarith
  have second : q * 100 * roundoff ≤ x * (101 * roundoff) := by
    have little : x * roundoff ≤ x * (1 / 100) := mul_le_mul_of_nonneg_left tiny nonneg
    have most : q * 100 ≤ x * 101 := by linarith [(abs_le.mp quotient).2]
    exact (mul_le_mul_of_nonneg_right most roundoff_pos.le).trans_eq (mul_assoc _ _ _)
  calc |(((ofNat w).div y).scale 100).toRat - 100 * x|
      ≤ _ + |q * 100 - 100 * x| := abs_sub_le _ (q * 100) _
    _ ≤ x * (101 * roundoff) + x * (100 * roundoff) := add_le_add (product.trans second) first
    _ = x * (201 * roundoff) := by ring

end Double

/-- A percentage that there is room for is an integer nearest to the share. -/
theorem abs_percentage_sub_le_of_room {w : UInt32} {d : Nat} (pos : 0 < d)
    (small : d < Double.binary Double.precision) (room : 100 * w.toNat ≤ (UInt32.size - 1) * d) :
    |((percentage w d).toNat : ℚ) - 100 * w.toNat / d| ≤ 1 / 2 := by
  have hd : (0 : ℚ) < d := Nat.cast_pos.mpr pos
  have exact : (Double.ofNat d).toRat = d := Double.toRat_ofNat small
  have drift := Double.abs_toRat_share_sub_le (w := w.toNat) (y := Double.ofNat d)
    (w.toNat_lt.trans (by decide)) (exact ▸ hd)
  have little : (w.toNat : ℚ) / d * (201 * Double.roundoff) < 1 / (2 * d) := by
    have word : (w.toNat : ℚ) ≤ 2 ^ 32 := by exact_mod_cast w.toNat_lt.le
    have weighed : (w.toNat : ℚ) * (402 * Double.roundoff) < 1 := by
      calc (w.toNat : ℚ) * (402 * Double.roundoff)
          ≤ 2 ^ 32 * (402 * Double.roundoff) := by
            have := Double.roundoff_pos
            gcongr
        _ < 1 := by norm_num [Double.roundoff, Double.precision]
    calc (w.toNat : ℚ) / d * (201 * Double.roundoff)
        = w.toNat * (402 * Double.roundoff) / (2 * d) := by
          field_simp
          ring
      _ < 1 / (2 * d) := div_lt_div_of_pos_right weighed (by positivity)
  rw [exact, show 100 * ((w.toNat : ℚ) / d) = (100 * w.toNat : Nat) / d by push_cast; ring] at drift
  have nearest := abs_sub_div_le_of_near pos (Double.abs_round_sub_le _) (drift.trans_lt little)
  have bound : ((100 * w.toNat : Nat) : ℚ) / d ≤ (UInt32.size - 1 : Nat) := by
    rw [div_le_iff₀ hd]
    exact_mod_cast room
  have most := le_of_abs_sub_le_half nearest bound
  rw [percentage, if_neg pos.ne']
  simp only
  rw [min_eq_left most, UInt32.toNat_ofNat_of_lt' (most.trans_lt (by decide))]
  exact_mod_cast nearest

/-- A percentage is an integer nearest to the share. -/
theorem abs_percentage_sub_le {w : UInt32} {d : Nat} (pos : 0 < d) (le : w.toNat ≤ d)
    (small : d ≤ 2 ^ 44) : |((percentage w d).toNat : ℚ) - 100 * w.toNat / d| ≤ 1 / 2 :=
  abs_percentage_sub_le_of_room pos (small.trans_lt (by decide))
    (Nat.mul_le_mul (by decide) le)

/-! ## Small weights and any sum -/

/-- A small weight is next to nothing of a sum that does not fit into 53 bits. -/
theorem percentage_le_of_large {w : UInt32} {d : Nat} (light : w ≤ 128)
    (large : Double.binary Double.precision ≤ d) : percentage w d ≤ 100 := by
  have tiny : Double.roundoff ≤ 1 / 2 := by norm_num [Double.roundoff, Double.precision]
  have weight : (w.toNat : ℚ) ≤ 128 := by exact_mod_cast UInt32.le_iff_toNat_le.mp light
  have sum : (2 : ℚ) ^ Double.precision ≤ d := by
    rw [← Double.cast_binary]
    exact_mod_cast large
  have divisor : (2 : ℚ) ^ Double.precision / 2 ≤ (Double.ofNat d).toRat := by
    have rounded := Double.abs_toRat_ofQuotient_sub_le d one_ne_zero
    rw [Nat.cast_one, div_one] at rounded
    have part : (d : ℚ) * Double.roundoff ≤ d * (1 / 2) := by gcongr
    rw [Double.ofNat]
    linarith [(abs_le.mp rounded).1]
  have small : (w.toNat : ℚ) / (Double.ofNat d).toRat ≤ 128 / (2 ^ Double.precision / 2) := by
    gcongr
  have drift := Double.abs_toRat_share_sub_le (w := w.toNat) (y := Double.ofNat d)
    (w.toNat_lt.trans (by decide)) (lt_of_lt_of_le (by positivity) divisor)
  have nonneg : 0 ≤ (w.toNat : ℚ) / (Double.ofNat d).toRat :=
    div_nonneg (Nat.cast_nonneg _) (le_trans (by positivity) divisor)
  set x := (w.toNat : ℚ) / (Double.ofNat d).toRat
  have most : (((Double.ofNat w.toNat).div (Double.ofNat d)).scale 100).toRat ≤ (100 : Nat) := by
    have bound : x * (201 * Double.roundoff) ≤ x * (201 * (1 / 2)) := by gcongr
    have few : x ≤ 1 / 4 := small.trans (by norm_num [Double.precision])
    push_cast
    linarith [(abs_le.mp drift).2]
  have whole := le_of_abs_sub_le_half (Double.abs_round_sub_le _) most
  rw [percentage, if_neg ((Double.binary_pos _).trans_le large).ne', UInt32.le_iff_toNat_le]
  simp only
  rw [min_eq_left (whole.trans (by decide)),
    UInt32.toNat_ofNat_of_lt' (whole.trans_lt (by decide))]
  exact whole

/-- The percentage of a small weight is an integer nearest to the share, or that of a sum for which
both are next to nothing. -/
theorem abs_percentage_sub_le_or {w : UInt32} (light : w ≤ 128) {d : Nat} (pos : 0 < d) :
    |((percentage w d).toNat : ℚ) - 100 * w.toNat / d| ≤ 1 / 2 ∨
      w.toNat ≤ d ∧ percentage w d ≤ 100 := by
  have weight : w.toNat ≤ 128 := UInt32.le_iff_toNat_le.mp light
  obtain small | large := Nat.lt_or_ge d (Double.binary Double.precision)
  · refine .inl (abs_percentage_sub_le_of_room pos small ?_)
    calc 100 * w.toNat
        ≤ 100 * 128 := Nat.mul_le_mul_left _ weight
      _ ≤ (UInt32.size - 1) * 1 := by decide
      _ ≤ (UInt32.size - 1) * d := Nat.mul_le_mul_left _ pos
  · have much : 128 ≤ Double.binary Double.precision := by decide
    exact .inr ⟨weight.trans (much.trans large), percentage_le_of_large light large⟩

/-- A small weight has more than a hundred percent of nothing but a smaller sum. -/
theorem percentage_le_hundred_iff {w : UInt32} (light : w ≤ 128) (d : Nat) :
    percentage w d ≤ 100 ↔ d = 0 ∨ w.toNat ≤ d := by
  obtain rfl | pos := Nat.eq_zero_or_pos d
  · simp
  have hd : (0 : ℚ) < d := Nat.cast_pos.mpr pos
  rw [or_iff_right pos.ne']
  obtain nearest | ⟨covered, low⟩ := abs_percentage_sub_le_or light pos
  · rw [UInt32.le_iff_toNat_le]
    constructor
    · intro low
      by_contra heavier
      have weight : (w.toNat : ℚ) ≤ 128 := by exact_mod_cast UInt32.le_iff_toNat_le.mp light
      have more : (d : ℚ) + 1 ≤ w.toNat := by exact_mod_cast not_le.mp heavier
      have percent : ((percentage w d).toNat : ℚ) ≤ 100 := by exact_mod_cast low
      have share : 100 * (w.toNat : ℚ) / d ≤ 201 / 2 := by linarith [(abs_le.mp nearest).1]
      rw [div_le_iff₀ hd] at share
      linarith
    · intro covered
      refine le_of_abs_sub_le_half nearest ?_
      rw [div_le_iff₀ hd]
      exact_mod_cast Nat.mul_le_mul_left 100 covered
  · exact iff_of_true low covered

theorem percentage_le {w : UInt32} (light : w ≤ 128) (d : Nat) : percentage w d ≤ 12800 := by
  obtain rfl | pos := Nat.eq_zero_or_pos d
  · rw [percentage_zero]
    decide
  obtain nearest | ⟨-, low⟩ := abs_percentage_sub_le_or light pos
  · refine UInt32.le_iff_toNat_le.mpr (le_of_abs_sub_le_half nearest ?_)
    rw [div_le_iff₀ (Nat.cast_pos.mpr pos)]
    have weight : w.toNat ≤ 128 := UInt32.le_iff_toNat_le.mp light
    have bound : 100 * w.toNat ≤ 12800 * d := by
      have one : 1 ≤ d := pos
      omega
    exact_mod_cast bound
  · exact UInt32.le_trans low (by decide)

namespace RouteMapping.Directory

/-! ## The mappings of a route -/

/-- The weights of the mappings of a route are parts of the sum, which has a bound. -/
theorem denominator_bounds {d : Directory} (balanced : d.Balanced)
    (admitted : ∀ m ∈ d.list, 1 ≤ m.weight ∧ m.weight ≤ 128) (few : d.size < 2 ^ 20)
    (route : RouteId) : d.denominator route ≤ 2 ^ 27 ∧
      ∀ m ∈ d.onRoute route, 0 < m.weight.toNat ∧ m.weight.toNat ≤ d.denominator route := by
  rw [balanced.denominator_eq]
  have parts : ∀ m ∈ d.onRoute route, 1 ≤ m.weight.toNat ∧ m.weight.toNat ≤ 128 := by
    intro m hm
    obtain ⟨least, most⟩ := admitted m (List.mem_filter.mp hm).1
    exact ⟨UInt32.le_iff_toNat_le.mp least, UInt32.le_iff_toNat_le.mp most⟩
  refine ⟨?_, fun m hm => ⟨(parts m hm).1, ?_⟩⟩
  · have short : (d.onRoute route).length ≤ d.size :=
      (List.length_filter_le _ _).trans_eq (List.length_map _)
    have bounded : ∀ n ∈ (d.onRoute route).map (·.weight.toNat), n ≤ 128 :=
      List.forall_mem_map.mpr fun m hm => (parts m hm).2
    have sum := List.sum_le_card_nsmul _ _ bounded
    rw [List.length_map, smul_eq_mul] at sum
    rw [totalWeight]
    omega
  · exact List.le_sum_of_mem (List.mem_map_of_mem hm)

theorem share_of_mem_onRoute {d : Directory} {route : RouteId} {m : RouteMapping}
    (hm : m ∈ d.onRoute route) : d.share m = percentage m.weight (d.denominator route) := by
  rw [share, (mem_onRoute.mp hm).2]

/-- The exact shares of the mappings of a route are all there is. -/
theorem sum_shares {d : Directory} (balanced : d.Balanced) {route : RouteId}
    (pos : 0 < d.denominator route) :
    ((d.onRoute route).map fun m => (100 * m.weight.toNat : ℚ) / d.denominator route).sum =
      100 := by
  have weights : ((d.onRoute route).map fun m => (m.weight.toNat : ℚ)).sum =
      d.denominator route := by
    rw [balanced.denominator_eq, totalWeight, Nat.cast_list_sum, List.map_map]
    rfl
  have parts : (fun m : RouteMapping => (100 * m.weight.toNat : ℚ) / d.denominator route) =
      fun m => (m.weight.toNat : ℚ) * (100 / d.denominator route) := by
    funext m
    ring
  rw [parts, List.sum_map_mul_right, weights, mul_div_cancel₀ _ (Nat.cast_pos.mpr pos).ne']

/-- If the stored weights are admitted and the mappings are fewer than 2^20, then the percentage of
every mapping of a route is a nearest integer to its share and no more than a hundred, those of
heavier mappings are no smaller, and all of them sum up to a hundred within half a percent for each.
A mapping that is alone has a hundred. -/
theorem shares_nearest (edits : List (Edit MappingKey RouteMapping)) (route : RouteId)
    (admitted : ∀ m ∈ (store.run edits).list, 1 ≤ m.weight ∧ m.weight ≤ 128)
    (few : (store.run edits).size < 2 ^ 20) (served : (store.run edits).onRoute route ≠ []) :
    let d := store.run edits
    let l := d.onRoute route
    (∀ m ∈ l, d.share m ≤ 100 ∧
      |((d.share m).toNat : ℚ) - 100 * m.weight.toNat / d.denominator route| ≤ 1 / 2) ∧
    (∀ m ∈ l, ∀ m' ∈ l, m.weight ≤ m'.weight → d.share m ≤ d.share m') ∧
    |((l.map fun m => (d.share m).toNat).sum : ℚ) - 100| ≤ l.length / 2 ∧
    ∀ m, l = [m] → d.share m = 100 := by
  intro d l
  have balanced : d.Balanced := balanced_run edits
  obtain ⟨small, weights⟩ := denominator_bounds balanced admitted few route
  obtain ⟨m₀, hm₀⟩ := List.exists_mem_of_ne_nil _ served
  have pos : 0 < d.denominator route := (weights m₀ hm₀).1.trans_le (weights m₀ hm₀).2
  have sum_pos : (0 : ℚ) < d.denominator route := Nat.cast_pos.mpr pos
  have nearest : ∀ m ∈ l,
      |((d.share m).toNat : ℚ) - 100 * m.weight.toNat / d.denominator route| ≤ 1 / 2 := by
    intro m hm
    rw [share_of_mem_onRoute hm]
    exact abs_percentage_sub_le pos (weights m hm).2 (small.trans (by decide))
  have total : |((l.map fun m => (d.share m).toNat).sum : ℚ) - 100| ≤ l.length / 2 := by
    have sums := abs_sum_sub_sum_le nearest
    rw [sum_shares balanced pos] at sums
    rwa [Nat.cast_list_sum, List.map_map]
  refine ⟨fun m hm => ⟨?_, nearest m hm⟩, fun m hm m' hm' lighter => ?_, total, ?_⟩
  · refine UInt32.le_iff_toNat_le.mpr (le_of_abs_sub_le_half (nearest m hm) ?_)
    rw [div_le_iff₀ sum_pos]
    exact_mod_cast Nat.mul_le_mul_left 100 (weights m hm).2
  · obtain lighter | same := UInt32.lt_or_eq_of_le lighter
    · refine UInt32.le_iff_toNat_le.mpr
        (le_of_abs_sub_le_half_of_lt (nearest m hm) (nearest m' hm') ?_)
      rw [div_lt_div_iff_of_pos_right sum_pos]
      exact_mod_cast Nat.mul_lt_mul_of_pos_left (UInt32.lt_iff_toNat_lt.mp lighter) (by decide)
    · rw [share_of_mem_onRoute hm, share_of_mem_onRoute hm', same]
      exact UInt32.le_refl _
  · rintro m alone
    rw [alone, List.map_singleton, List.sum_singleton, List.length_singleton, Nat.cast_one] at total
    have near : |((d.share m).toNat : ℤ) - 100| < 1 := by
      have : |((d.share m).toNat : ℚ) - 100| < 1 := total.trans_lt (by norm_num)
      exact_mod_cast this
    exact UInt32.toNat_inj.mp (by exact_mod_cast sub_eq_zero.mp (Int.abs_lt_one_iff.mp near))

/-- Two shares in the middle between integers are both rounded upwards, which makes the greatest
difference to a hundred that there can be. -/
theorem shares_nearest_halves :
    let edits : List (Edit MappingKey RouteMapping) :=
      [.replace [⟨"r-1", "p-1", 1⟩, ⟨"r-1", "p-2", 7⟩, ⟨"r-2", "p-1", 128⟩]]
    let d := store.run edits
    (∀ m ∈ d.list, 1 ≤ m.weight ∧ m.weight ≤ 128) ∧ d.size < 2 ^ 20 ∧ d.onRoute "r-1" ≠ [] ∧
      (d.onRoute "r-1").map d.share = [13, 88] ∧
      |(((d.onRoute "r-1").map fun m => (d.share m).toNat).sum : ℚ) - 100| ≤
        (d.onRoute "r-1").length / 2 ∧
      d.share ⟨"r-2", "p-1", 128⟩ = 100 := by
  intro edits d
  have admitted : ∀ m ∈ d.list, 1 ≤ m.weight ∧ m.weight ≤ 128 := by decide
  have few : d.size < 2 ^ 20 := by decide
  obtain ⟨-, -, total, -⟩ := shares_nearest edits "r-1" admitted few (by decide)
  obtain ⟨-, -, -, alone⟩ := shares_nearest edits "r-2" admitted few (by decide)
  exact ⟨admitted, few, by decide, by decide, total, alone _ (by decide)⟩

end RouteMapping.Directory

end MeshControl
