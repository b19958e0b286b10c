/-!
# The order of paths

Requests are matched against path prefixes from longer to shorter ones, and then against no
prefix at all, so that the first match is the longest.

## Main definitions

* `comparePaths` — the order.
* `PathKey` — an optional path with that order.
-/

namespace MeshControl

open Std

/-- Longer paths come before shorter ones, those of one length in the order of their texts, and
no path comes last. The length is that of the bytes. -/
def comparePaths : Option String → Option String → Ordering
  | some a, some b => (compare b.utf8ByteSize a.utf8ByteSize).then (compare a b)
  | some _, none => .lt
  | none, some _ => .gt
  | none, none => .eq

/-- A path, or none, in the order of matching. -/
structure PathKey where
  path : Option String
  deriving DecidableEq, Inhabited

namespace PathKey

instance : Ord PathKey := ⟨fun a b => comparePaths a.path b.path⟩

def byLength : String → String → Ordering :=
  compareLex (fun a b => compare b.utf8ByteSize a.utf8ByteSize) compare

instance : TransCmp byLength :=
  haveI : TransCmp fun a b : String => compare b.utf8ByteSize a.utf8ByteSize :=
    inferInstanceAs (TransCmp fun a b : String =>
      (compareOn String.utf8ByteSize) b a)
  inferInstanceAs (TransCmp (compareLex _ _))

theorem byLength_eq {a b : String} (h : byLength a b = .eq) : a = b := by
  have h' : (compare b.utf8ByteSize a.utf8ByteSize).then (compare a b) = .eq := h
  rw [Ordering.then_eq_eq] at h'
  exact LawfulEqCmp.compare_eq_iff_eq.1 h'.2

instance : TransOrd PathKey where
  eq_swap {a b} := by
    obtain ⟨_ | a⟩ := a <;> obtain ⟨_ | b⟩ := b
    · rfl
    · rfl
    · rfl
    · exact @OrientedCmp.eq_swap _ byLength _ a b
  isLE_trans {a b c} h₁ h₂ := by
    obtain ⟨_ | a⟩ := a <;> obtain ⟨_ | b⟩ := b <;> obtain ⟨_ | c⟩ := c
    · rfl
    · cases h₂
    · rfl
    · cases h₁
    · rfl
    · cases h₂
    · rfl
    · exact @TransCmp.isLE_trans _ byLength _ a b c h₁ h₂

instance : LawfulEqOrd PathKey where
  compare_self {a} := by
    obtain ⟨_ | a⟩ := a
    · rfl
    · exact @ReflCmp.compare_self _ byLength _ a
  eq_of_compare {a b} h := by
    obtain ⟨_ | a⟩ := a <;> obtain ⟨_ | b⟩ := b
    · rfl
    · cases h
    · cases h
    · rw [byLength_eq h]

end PathKey

end MeshControl
