/-!
# Letter case and affixes of names

Host names are compared without regard to the case of their ASCII letters; every other
character stands for itself.

## Main definitions

* `Text.lower`, `Text.IsLower` — ASCII letters in lower case.
* `Text.trimEnd` — a text without the copies of one character at its end.
* `Text.split` — the parts of a text.
* `Text.hasPrefix`, `Text.hasSuffix`.
-/

namespace MeshControl.Text

/-- The text with its ASCII letters in lower case. -/
def lower (s : String) : String := String.ofList (s.toList.map Char.toLower)

def IsLower (s : String) : Prop := ∀ c ∈ s.toList, c.isUpper = false

/-- The text without the copies of `c` at its end. -/
def trimEnd (c : Char) (s : String) : String :=
  String.ofList (s.toList.reverse.dropWhile (· == c)).reverse

/-- The parts of a text between the copies of `c`. -/
def split (c : Char) (s : String) : List String := (s.toList.splitOn c).map String.ofList

def hasPrefix (p s : String) : Bool := p.toList.isPrefixOf s.toList

def hasSuffix (p s : String) : Bool := p.toList.isSuffixOf s.toList

/-- What is left of `s` after the suffix `p`, if it ends so. -/
def dropSuffix? (p s : List Char) : Option (List Char) :=
  if p.isSuffixOf s then some (s.take (s.length - p.length)) else none

/-! ## Laws -/

@[simp] theorem toList_lower (s : String) : (lower s).toList = s.toList.map Char.toLower := by
  simp [lower]

theorem isUpper_toLower (c : Char) : c.toLower.isUpper = false := by
  delta Char.toLower Char.isUpper
  split
  · rename_i h
    have : ¬ (c.val + ('a'.val - 'A'.val) ≥ 'A'.val ∧
        c.val + ('a'.val - 'A'.val) ≤ 'Z'.val) := by
      simp only [ge_iff_le, UInt32.le_iff_toNat_le] at h ⊢
      have h32 : 'a'.val - 'A'.val = 32 := by decide
      rw [h32, UInt32.toNat_add]
      have e1 : 'A'.val.toNat = 65 := by decide
      have e2 : 'Z'.val.toNat = 90 := by decide
      have e3 : UInt32.toNat 32 = 32 := by decide
      rw [e1, e2] at h ⊢
      rw [e3]
      omega
    exact decide_eq_false this
  · rename_i h
    exact decide_eq_false h

theorem toLower_of_isUpper_eq_false {c : Char} (h : c.isUpper = false) : c.toLower = c := by
  delta Char.toLower
  exact dif_neg (of_decide_eq_false h)

theorem toLower_toLower (c : Char) : c.toLower.toLower = c.toLower :=
  toLower_of_isUpper_eq_false (isUpper_toLower c)

@[simp] theorem lower_lower (s : String) : lower (lower s) = lower s := by
  simp only [lower, String.toList_ofList, List.map_map]
  congr 1
  exact List.map_congr_left fun c _ => toLower_toLower c

@[simp] theorem lower_eq_empty_iff {s : String} : lower s = "" ↔ s = "" := by
  rw [← String.toList_inj, ← String.toList_inj, toList_lower]
  simp

theorem isLower_lower (s : String) : IsLower (lower s) := by
  intro c hc
  rw [toList_lower, List.mem_map] at hc
  obtain ⟨c, -, rfl⟩ := hc
  exact isUpper_toLower c

theorem IsLower.lower_eq {s : String} (h : IsLower s) : lower s = s := by
  rw [lower, List.map_congr_left fun c hc => toLower_of_isUpper_eq_false (h c hc), List.map_id',
    String.ofList_toList]

end MeshControl.Text
