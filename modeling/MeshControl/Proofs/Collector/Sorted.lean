import Mathlib
import MeshControl.Proofs.Collector.Order

/-!
# The one order of a list of records

Any two records can be compared, and those that tie agree in all that is compared. So a list of
records has one stable sort: what is compared decides the order of records that do not tie, and the
list that of the others.

## Main definitions

* `TotalPreorder` — the laws of a comparison.
* `RouteRecord.StablySorts` — a list is another one in order, up to ties.
* `RouteRecord.stablySorts_iff` — there is one such list.
* `RouteRecord.cmp_decides` — with that, the laws of the two comparisons.
-/

namespace MeshControl

/-- A comparison that puts any two elements in order, and may find some of them equal. -/
structure TotalPreorder {α : Type} (cmp : α → α → Ordering) : Prop where
  refl : ∀ a, cmp a a = .eq
  swap : ∀ a b, cmp a b = (cmp b a).swap
  trans : ∀ a b c, cmp a b ≠ .gt → cmp b c ≠ .gt → cmp a c ≠ .gt

theorem TotalPreorder.of_transCmp {α : Type} (cmp : α → α → Ordering) [Std.TransCmp cmp] :
    TotalPreorder cmp where
  refl _ := Std.ReflCmp.compare_self
  swap _ _ := Std.OrientedCmp.eq_swap
  trans a b c := by
    simp only [← Ordering.isLE_iff_ne_gt]
    exact Std.TransCmp.isLE_trans

/-! ## Paths -/

instance : Std.TransCmp comparePaths := inferInstanceAs (Std.TransCmp (compareOn PathKey.mk))

/-- A path comes before what it begins with. -/
theorem comparePaths_append (p : String) {s : String} (more : s ≠ "") :
    comparePaths (some (p ++ s)) (some p) = .lt := by
  refine comparePaths_eq_lt_iff.mpr (.longer ?_)
  have bytes : s.utf8ByteSize ≠ 0 := mt String.utf8ByteSize_eq_zero_iff.mp more
  rw [String.utf8ByteSize_append]
  omega

namespace RouteRecord

/-! ## Stable sorting -/

/-- The records of a list in order, where those that tie stand as they stand in the list. -/
structure StablySorts (sorted l : List RouteRecord) : Prop where
  perm : sorted.Perm l
  ordered : sorted.Pairwise fun a b => cmp a b ≠ .gt
  ties : ∀ a, sorted.filter (cmp a · = .eq) = l.filter (cmp a · = .eq)

theorem cmp_eq_eq_iff_isLE {a b : RouteRecord} :
    cmp a b = .eq ↔ (cmp a b).isLE ∧ (cmp b a).isLE := by
  rw [(TotalPreorder.of_transCmp cmp).swap b a]
  cases cmp a b <;> simp

theorem stablySorts_sort (l : List RouteRecord) : StablySorts (sort l) l where
  perm := List.mergeSort_perm l _
  ordered := by
    simp only [← Ordering.isLE_iff_ne_gt]
    exact List.pairwise_mergeSort isLE_cmp_trans isLE_cmp_total l
  ties a := by
    refine filter_mergeSort isLE_cmp_trans isLE_cmp_total (fun b c hb hc => ?_) l
    simp only [decide_eq_true_eq, cmp_eq_eq_iff_isLE] at hb hc
    exact isLE_cmp_trans b a c hb.2 hc.1

/-- A list of records has one stable sort. -/
theorem stablySorts_iff {sorted l : List RouteRecord} :
    StablySorts sorted l ↔ sorted = sort l := by
  constructor
  · intro h
    have reference := stablySorts_sort l
    have ordered : ∀ {m}, StablySorts m l → m.Pairwise fun a b => (cmp a b).isLE := by
      intro m hm
      simpa only [Ordering.isLE_iff_ne_gt] using hm.ordered
    refine eq_of_sorted isLE_cmp_total (ordered h) (ordered reference) fun a => ?_
    have tied : (fun b => (cmp a b).isLE && (cmp b a).isLE) = fun b => decide (cmp a b = .eq) := by
      funext b
      rw [Bool.eq_iff_iff, Bool.and_eq_true, decide_eq_true_eq, cmp_eq_eq_iff_isLE]
    rw [tied, h.ties, reference.ties]
  · rintro rfl
    exact stablySorts_sort l

/-- The comparison of records is a total preorder in which records tie if they agree in host name,
path, process and scheduler process. That of paths is a total order in which a path comes before
what it begins with, and no path last. So a list of records has one stable sort, and it is this that
is collected. -/
theorem cmp_decides :
    (TotalPreorder cmp ∧ ∀ a b : RouteRecord, cmp a b = .eq ↔ a.Tied b) ∧
    (TotalPreorder comparePaths ∧ (∀ p q, comparePaths p q = .eq ↔ p = q) ∧
      (∀ p s, s ≠ "" → comparePaths (some (p ++ s)) (some p) = .lt) ∧
      ∀ p, comparePaths (some p) none = .lt) ∧
    (∀ sorted l, StablySorts sorted l ↔ sorted = sort l) ∧
    ∀ (d : DesiredState) (live : LiveBackends) (sorted : List RouteRecord),
      StablySorts sorted (d.mappings.list.flatMap (d.recordsOf live)) ↔
        sorted = d.collect live := by
  refine ⟨⟨.of_transCmp cmp, fun _ _ => cmp_eq_eq_iff⟩, ⟨.of_transCmp comparePaths, fun _ _ =>
    comparePaths_eq_eq_iff, fun p s more => ?_, fun _ => rfl⟩, fun _ _ => stablySorts_iff,
    fun _ _ _ => stablySorts_iff⟩
  exact comparePaths_append p more

end RouteRecord

end MeshControl
