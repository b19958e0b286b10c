import Mathlib
import MeshControl.Proofs.Json.Strings

/-!
# Number literals

A whole number is written with its decimal digits. If it has 64 bits, they are read back as this
number, since all its digits count and no rounding brings it out of range.

## Main statements

* `Double.floor_ofNat_le` — rounding changes the size of a number only a little.
* `Json.Token.natOfDigits_digitBytes` — the digits of a number write it.
* `Json.Token.first_digitBytes` — a number literal is read as its number.
-/

namespace MeshControl

namespace Double

theorem divRound_le (n d : Nat) : divRound n d ≤ n / d + 1 := by
  simp only [divRound]
  split_ifs <;> omega

theorem floor_ofScaled_le (n up down : Nat) :
    (ofScaled n 1 up down).floor ≤ n + binary down := by
  have mantissa : divRound (n * binary up) (1 * binary down) * binary down ≤
      n * binary up + binary down := by
    calc divRound (n * binary up) (1 * binary down) * binary down
        ≤ (n * binary up / binary down + 1) * binary down := by
          rw [one_mul]
          exact Nat.mul_le_mul_right _ (divRound_le _ _)
      _ ≤ n * binary up + binary down := by
          rw [Nat.add_mul, one_mul]
          exact Nat.add_le_add_right (Nat.div_mul_le_self _ _) _
  calc (ofScaled n 1 up down).floor
      ≤ (n * binary up + binary down) / binary up := Nat.div_le_div_right mantissa
    _ ≤ n + binary down := by
      rw [Nat.add_comm, Nat.add_mul_div_right _ _ (binary_pos up), Nat.add_comm]
      exact Nat.add_le_add_left (Nat.div_le_self _ _) _

/-- Rounding to 53 bits changes the size of a whole number only a little. -/
theorem floor_ofNat_le (n : Nat) : (ofNat n).floor ≤ 3 * n := by
  rw [ofNat, ofQuotient]
  by_cases zero : n = 0
  · simp [zero, floor]
  have unit : binary (n.log2 + 1) ≤ 2 * n := by
    have below : binary n.log2 ≤ n := Nat.log2_self_le zero
    have double : binary (n.log2 + 1) = binary n.log2 * 2 := Nat.pow_succ _ _
    omega
  have close : ∀ up down, down ≤ n.log2 + 1 → (ofScaled n 1 up down).floor ≤ 3 * n := by
    intro up down small
    have := floor_ofScaled_le n up down
    have : binary down ≤ binary (n.log2 + 1) := Nat.pow_le_pow_right (by decide) small
    omega
  rw [if_neg (by omega)]
  simp only
  split_ifs <;> exact close _ _ (by omega)

end Double

namespace Json

open Text

namespace Token

/-! ## Number literals -/

/-- What follows a value: nothing, or punctuation. -/
def Ends : List UInt8 → Prop
  | [] => True
  | b :: _ => b ∈ [0x2C, 0x3A, 0x5D, 0x7D]

/-- The digits of a number, as they are written. -/
def digitBytes (n : Nat) : List UInt8 := (Nat.toDigits 10 n).map fun c => UInt8.ofNat c.toNat

theorem toNat_of_isDigit {c : Char} (h : c.isDigit) : 48 ≤ c.toNat ∧ c.toNat ≤ 57 := by
  simpa [Char.isDigit, UInt32.le_iff_toNat_le] using h

theorem toNat_of_mem_toDigits {n : Nat} {c : Char} (h : c ∈ Nat.toDigits 10 n) :
    48 ≤ c.toNat ∧ c.toNat ≤ 57 :=
  toNat_of_isDigit (Nat.isDigit_of_mem_toDigits (by decide) le_rfl h)

theorem toNat_ofNat_of_mem_toDigits {n : Nat} {c : Char} (h : c ∈ Nat.toDigits 10 n) :
    (UInt8.ofNat c.toNat).toNat = c.toNat :=
  UInt8.toNat_ofNat_of_lt' ((toNat_of_mem_toDigits h).2.trans_lt (by decide))

theorem encode_toString (n : Nat) : Utf8.encode (toString n) = digitBytes n := by
  rw [Nat.toString_eq_ofList_toDigits, Utf8.encode_ofList, digitBytes, List.map_eq_flatMap]
  refine List.flatMap_congr fun c hc => Utf8.utf8EncodeChar_of_lt ?_
  have := toNat_of_mem_toDigits hc
  omega

theorem isDigit_of_mem_digitBytes {n : Nat} {b : UInt8} (h : b ∈ digitBytes n) : isDigit b := by
  obtain ⟨c, hc, rfl⟩ := List.mem_map.mp h
  simpa [isDigit, UInt8.le_iff_toNat_le, toNat_ofNat_of_mem_toDigits hc] using
    toNat_of_mem_toDigits hc

theorem natOfDigits_digitBytes (n : Nat) : natOfDigits (digitBytes n) = n := by
  refine Eq.trans ?_ (Nat.ofDigitChars_ten_toDigits (n := n))
  rw [natOfDigits, digitBytes, List.foldl_map, Nat.ofDigitChars_eq_foldl]
  refine List.foldl_ext _ _ 0 fun m c hc => ?_
  rw [toNat_ofNat_of_mem_toDigits hc, Nat.mul_comm]
  rfl

theorem digitBytes_ne_nil (n : Nat) : digitBytes n ≠ [] :=
  mt List.map_eq_nil_iff.mp Nat.toDigits_ne_nil

/-- Only zero itself is written with a zero in front. -/
theorem eq_nil_of_digitBytes_eq_cons {n : Nat} {ds : List UInt8} (h : digitBytes n = 0x30 :: ds) :
    ds = [] := by
  induction n using Nat.base_induction 10 (by decide) generalizing ds with
  | single m hm =>
    rw [digitBytes, Nat.toDigits_of_lt_base hm] at h
    exact (List.cons.inj h).2.symm
  | digit m k hk hm ih =>
    rw [digitBytes, ← Nat.toDigits_append_toDigits (by decide) hm hk, List.map_append,
      ← digitBytes, ← digitBytes] at h
    obtain ⟨b, rest, first⟩ := List.exists_cons_of_ne_nil (digitBytes_ne_nil m)
    rw [first, List.cons_append] at h
    obtain ⟨rfl, -⟩ := List.cons.inj h
    have value := natOfDigits_digitBytes m
    rw [first, ih first] at value
    exact absurd hm (value ▸ lt_irrefl 0)

theorem digits_append {ds : List UInt8} (h : ∀ d ∈ ds, isDigit d) {rest : List UInt8}
    (ends : Ends rest) : digits (ds ++ rest) = (ds, rest) := by
  have stop : rest.takeWhile isDigit = [] ∧ rest.dropWhile isDigit = rest := by
    cases rest with
    | nil => exact ⟨rfl, rfl⟩
    | cons b rest =>
      have other : isDigit b = false := by
        simp only [Ends, List.mem_cons, List.not_mem_nil, or_false] at ends
        rcases ends with rfl | rfl | rfl | rfl <;> rfl
      simp [other]
  rw [digits, List.takeWhile_append_of_pos h, List.dropWhile_append_of_pos h, stop.1, stop.2,
    List.append_nil]

theorem le_foldl_digits (ds : List UInt8) (m : Nat) :
    m ≤ ds.foldl (fun n d => n * 10 + (d.toNat - 48)) m := by
  induction ds generalizing m with
  | nil => exact le_rfl
  | cons d ds ih =>
    exact (Nat.le_add_right_of_le (Nat.le_mul_of_pos_right m (by decide))).trans (ih _)

/-- All digits count if the number is one of 64 bits. -/
theorem whole_eq (ds : List UInt8) (m : Nat)
    (h : ds.foldl (fun n d => n * 10 + (d.toNat - 48)) m < UInt64.size) :
    Scaled.whole ⟨m, 0⟩ ds = ⟨ds.foldl (fun n d => n * 10 + (d.toNat - 48)) m, 0⟩ := by
  induction ds generalizing m with
  | nil => rfl
  | cons d ds ih =>
    have takes : Scaled.takes ⟨m, 0⟩ d := decide_eq_true ((le_foldl_digits ds _).trans_lt h)
    rw [Scaled.whole, if_pos takes]
    exact ih _ h

/-- A number of 64 bits is in range. -/
theorem isFinite_digitBytes {n : Nat} (h : n < UInt64.size) :
    isFinite (digitBytes n) [] false 0 := by
  have value : (digitBytes n).foldl (fun n d => n * 10 + (d.toNat - 48)) 0 = n :=
    natOfDigits_digitBytes n
  have whole : Scaled.whole ⟨0, 0⟩ (digitBytes n) = ⟨n, 0⟩ := by
    rw [whole_eq _ _ (value.symm ▸ h), value]
  have range : Double.productIsFinite n (Double.decimal 0) := by
    have one : (Double.ofNat (Double.decimal 0)).floor = 1 := by decide
    have bound : 3 * UInt64.size ≤ Double.overflow := by decide +kernel
    have close := Double.floor_ofNat_le n
    rw [Double.productIsFinite, one, mul_one]
    exact decide_eq_true (by omega)
  simp [isFinite, whole, Scaled.fraction, Scaled.isFinite, maxExponent, maxPower, range]

theorem Ends.ne {b : UInt8} {rest : List UInt8} (ends : Ends (b :: rest)) :
    b ≠ 0x2E ∧ b ≠ 0x65 ∧ b ≠ 0x45 := by
  simp only [Ends, List.mem_cons, List.not_mem_nil, or_false] at ends
  rcases ends with rfl | rfl | rfl | rfl <;> decide

theorem fractionDigits_of_ends {rest : List UInt8} (ends : Ends rest) :
    fractionDigits rest = some ([], rest) := by
  cases rest with
  | nil => rfl
  | cons b rest => exact if_neg ends.ne.1

theorem exponentDigits_of_ends {rest : List UInt8} (ends : Ends rest) :
    exponentDigits rest = some ([], false, [], rest) := by
  cases rest with
  | nil => rfl
  | cons b rest => exact if_neg fun mark => mark.elim ends.ne.2.1 ends.ne.2.2

theorem wholeDigits_append (n : Nat) {rest : List UInt8} (ends : Ends rest) :
    wholeDigits (digitBytes n ++ rest) = some (digitBytes n, rest) := by
  obtain ⟨b, ds, written⟩ := List.exists_cons_of_ne_nil (digitBytes_ne_nil n)
  rw [wholeDigits, digits_append (fun _ => isDigit_of_mem_digitBytes) ends, written]
  refine if_neg ?_
  rintro ⟨rfl, more⟩
  exact more (eq_nil_of_digitBytes_eq_cons written)

theorem first_of_isDigit {b : UInt8} (digit : isDigit b) (rest : List UInt8) :
    first b rest = numberToken (b :: rest) := by
  have other : ∀ x, isDigit x = false → b ≠ x := by
    rintro x no rfl
    exact absurd digit (by simp [no])
  simp only [first, other 0x5B rfl, other 0x5D rfl, other 0x7B rfl, other 0x7D rfl, other 0x3A rfl,
    other 0x2C rfl, other 0x22 rfl, other 0x6E rfl, other 0x74 rfl, other 0x66 rfl, if_false]

/-- A number literal is read as the number that it was written for. -/
theorem first_digitBytes {n : Nat} (h : n < UInt64.size) : ∃ b bytes, digitBytes n = b :: bytes ∧
    isSpace b = false ∧
      ∀ rest, Ends rest → first b (bytes ++ rest) = some (.number ⟨false, n, ""⟩, rest) := by
  obtain ⟨b, bytes, written⟩ := List.exists_cons_of_ne_nil (digitBytes_ne_nil n)
  have digit : isDigit b := isDigit_of_mem_digitBytes (written ▸ List.mem_cons_self)
  have noSign : b ≠ 0x2D := by
    rintro rfl
    cases digit
  have noSpace : isSpace b = false := by
    by_contra space
    simp only [isSpace, Bool.or_eq_true, beq_iff_eq, Bool.not_eq_false] at space
    rcases space with ((rfl | rfl) | rfl) | rfl <;> cases digit
  refine ⟨b, bytes, written, noSpace, fun rest ends => ?_⟩
  have whole := wholeDigits_append n ends
  have exponent : natOfDigits [] = 0 := rfl
  rw [written, List.cons_append, ← written] at whole
  rw [first_of_isDigit digit]
  simp only [numberToken, noSign, if_false, Option.bind_eq_bind, Option.bind_some, whole,
    fractionDigits_of_ends ends, exponentDigits_of_ends ends, exponent, isFinite_digitBytes h,
    if_true, natOfDigits_digitBytes]
  rfl

end Token

end Json

end MeshControl
