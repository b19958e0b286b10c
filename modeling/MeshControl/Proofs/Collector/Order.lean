import Mathlib
import MeshControl.Collector
import MeshControl.Mesh.VirtualServices

/-!
# The order of records

Records are sorted by a comparison that looks at host name, path, process and scheduler process
alone. The sort is stable, so that records with all four in common stay as they were. What it does
to a list is therefore not touched by anything else that the records hold.

## Main definitions

* `PathPrecedes`, `RouteRecord.Precedes`, `Backend.Precedes` — the orders in words.
* `RouteRecord.Tied` — nothing that the order looks at tells two records apart.
* `pairwise_mergeSort_stable` — what a stable sort does to a list.
* `eq_of_sorted` — which sorted lists are equal.
* `RouteRecord.cmp_eq_lt_iff`, `RouteRecord.map_sort` — the comparison, and what it does not see.
-/

namespace MeshControl

/-- Longer paths come before shorter ones, those of one length in the order of their texts, and
any path before none. The length is that of the bytes. -/
inductive PathPrecedes : Option String → Option String → Prop
  | longer {p q : String} : q.utf8ByteSize < p.utf8ByteSize → PathPrecedes (some p) (some q)
  | text {p q : String} : p.utf8ByteSize = q.utf8ByteSize → p < q →
      PathPrecedes (some p) (some q)
  | qualified {p : String} : PathPrecedes (some p) none

/-- A record comes before another by host name, path, process or scheduler process. -/
inductive RouteRecord.Precedes (a b : RouteRecord) : Prop
  | hostname : a.hostname < b.hostname → Precedes a b
  | path : a.hostname = b.hostname → PathPrecedes a.path b.path → Precedes a b
  | process : a.hostname = b.hostname → a.path = b.path → a.processId < b.processId →
      Precedes a b
  | scheduler : a.hostname = b.hostname → a.path = b.path → a.processId = b.processId →
      a.schedulerId < b.schedulerId → Precedes a b

/-- Two records agree in everything that orders them. -/
structure RouteRecord.Tied (a b : RouteRecord) : Prop where
  hostname : a.hostname = b.hostname
  path : a.path = b.path
  process : a.processId = b.processId
  scheduler : a.schedulerId = b.schedulerId

/-- A backend comes before another by address, port or container port. -/
inductive Backend.Precedes (a b : Backend) : Prop
  | address : a.address < b.address → Precedes a b
  | port : a.address = b.address → a.port < b.port → Precedes a b
  | containerPort : a.address = b.address → a.port = b.port →
      a.containerPort < b.containerPort → Precedes a b

/-! ## Stable sorting -/

/-- Of two elements one is not after the other. -/
theorem isLE_total {α : Type} {cmp : α → α → Ordering} [Std.OrientedCmp cmp] (a b : α) :
    (cmp a b).isLE || (cmp b a).isLE := by
  rw [@Std.OrientedCmp.eq_swap _ cmp _ b a]
  cases cmp a b <;> rfl

section Stable

variable {α : Type} {le : α → α → Bool}

/-- Elements that are all equivalent to the order keep their places. -/
theorem filter_mergeSort (trans : ∀ a b c, le a b → le b c → le a c)
    (total : ∀ a b, le a b || le b a) {p : α → Bool} (equivalent : ∀ a b, p a → p b → le a b)
    (l : List α) : (l.mergeSort le).filter p = l.filter p := by
  have sorted : (l.filter p).Pairwise fun a b => le a b :=
    List.pairwise_of_forall_mem_list fun a ha b hb =>
      equivalent a b (List.mem_filter.mp ha).2 (List.mem_filter.mp hb).2
  have kept : (l.filter p).Sublist (l.mergeSort le) :=
    List.sublist_mergeSort trans total sorted List.filter_sublist
  have inner : (l.filter p).Sublist ((l.mergeSort le).filter p) := by
    simpa using kept.filter p
  have length : ((l.mergeSort le).filter p).length ≤ (l.filter p).length :=
    (((List.mergeSort_perm l le).filter p).length_eq).le
  exact (inner.eq_of_length_le length).symm

/-- In a sorted list, equivalent elements stand as they stood in the list. -/
theorem pairwise_mergeSort_stable (trans : ∀ a b c, le a b → le b c → le a c)
    (total : ∀ a b, le a b || le b a) {R : α → α → Prop} {l : List α} (h : l.Pairwise R) :
    (l.mergeSort le).Pairwise fun a b => le a b ∧ (le b a → R a b) := by
  have sorted := List.pairwise_mergeSort trans total l
  rw [List.pairwise_iff_forall_sublist] at sorted h ⊢
  intro a b hab
  refine ⟨sorted hab, fun hba => h ?_⟩
  have refl : ∀ x, le x x := fun x => by simpa using total x x
  -- Both elements belong to one class, and the class was not reordered.
  let p : α → Bool := fun x => le a x && le x a
  have equivalent : ∀ x y, p x → p y → le x y := by
    intro x y hx hy
    simp only [p, Bool.and_eq_true] at hx hy
    exact trans _ _ _ hx.2 hy.1
  have pair : [a, b].filter p = [a, b] := by simp [p, refl, sorted hab, hba]
  have inside : ([a, b].filter p).Sublist ((l.mergeSort le).filter p) := hab.filter p
  rw [pair, filter_mergeSort trans total equivalent] at inside
  exact inside.trans List.filter_sublist

/-- Sorted lists are equal if they have the elements of every class in the same order. -/
theorem eq_of_sorted (total : ∀ a b, le a b || le b a) {l l' : List α}
    (sorted : l.Pairwise fun a b => le a b) (sorted' : l'.Pairwise fun a b => le a b)
    (classes : ∀ a, l.filter (fun b => le a b && le b a) = l'.filter fun b => le a b && le b a) :
    l = l' := by
  have refl : ∀ a, le a a := fun a => by simpa using total a a
  induction l generalizing l' with
  | nil =>
    cases l' with
    | nil => rfl
    | cons b l' => simpa [refl] using classes b
  | cons a l ih =>
    cases l' with
    | nil => simpa [refl] using classes a
    | cons b l' =>
      obtain ⟨least, sortedRest⟩ := List.pairwise_cons.mp sorted
      obtain ⟨least', sortedRest'⟩ := List.pairwise_cons.mp sorted'
      -- Each of the first two elements is in the other list, so neither is before the other.
      have after : le b a := by
        have member : a ∈ (b :: l').filter fun c => le a c && le c a := by
          rw [← classes a]
          simp [refl]
        obtain rfl | later := List.mem_cons.mp (List.mem_filter.mp member).1
        · exact refl _
        · exact least' _ later
      have before : le a b := by
        have member : b ∈ (a :: l).filter fun c => le b c && le c b := by
          rw [classes b]
          simp [refl]
        obtain rfl | later := List.mem_cons.mp (List.mem_filter.mp member).1
        · exact refl _
        · exact least _ later
      obtain rfl : a = b := by simpa [refl, before, after] using congrArg List.head? (classes a)
      congr 1
      refine ih sortedRest sortedRest' fun c => ?_
      have rest := classes c
      rw [List.filter_cons, List.filter_cons] at rest
      split_ifs at rest with h
      · exact (List.cons.inj rest).2
      · exact rest

end Stable

/-! ## Paths -/

theorem comparePaths_eq_lt_iff {a b : Option String} :
    comparePaths a b = .lt ↔ PathPrecedes a b := by
  constructor
  · intro h
    cases a with
    | none => cases b <;> cases h
    | some p =>
      cases b with
      | none => exact .qualified
      | some q =>
        rw [comparePaths, Ordering.then_eq_lt] at h
        rcases h with shorter | ⟨same, before⟩
        · exact .longer (compare_lt_iff_lt.mp shorter)
        · exact .text (compare_eq_iff_eq.mp same).symm (compare_lt_iff_lt.mp before)
  · rintro (shorter | ⟨same, before⟩ | _)
    · rw [comparePaths, compare_lt_iff_lt.mpr shorter]
      rfl
    · rw [comparePaths, compare_eq_iff_eq.mpr same.symm, compare_lt_iff_lt.mpr before]
      rfl
    · rfl

theorem comparePaths_eq_eq_iff {a b : Option String} : comparePaths a b = .eq ↔ a = b := by
  have keys : compare (PathKey.mk a) ⟨b⟩ = .eq ↔ PathKey.mk a = ⟨b⟩ :=
    Std.LawfulEqCmp.compare_eq_iff_eq
  rwa [PathKey.mk.injEq] at keys

namespace RouteRecord

/-! ## Records -/

instance : Std.TransCmp cmp :=
  inferInstanceAs (Std.TransCmp (compareLex (compareOn hostname) <|
    compareLex (compareOn pathKey) <| compareLex (compareOn processId) (compareOn schedulerId)))

theorem cmp_eq_lt_iff {a b : RouteRecord} : cmp a b = .lt ↔ a.Precedes b := by
  simp only [cmp, Ordering.then_eq_lt, compare_lt_iff_lt, compare_eq_iff_eq,
    comparePaths_eq_lt_iff, comparePaths_eq_eq_iff]
  constructor
  · rintro (h | ⟨hostname, h | ⟨path, h | ⟨process, h⟩⟩⟩)
    · exact .hostname h
    · exact .path hostname h
    · exact .process hostname path h
    · exact .scheduler hostname path process h
  · rintro (h | ⟨hostname, h⟩ | ⟨hostname, path, h⟩ | ⟨hostname, path, process, h⟩)
    · exact .inl h
    · exact .inr ⟨hostname, .inl h⟩
    · exact .inr ⟨hostname, .inr ⟨path, .inl h⟩⟩
    · exact .inr ⟨hostname, .inr ⟨path, .inr ⟨process, h⟩⟩⟩

theorem cmp_eq_eq_iff {a b : RouteRecord} : cmp a b = .eq ↔ a.Tied b := by
  simp only [cmp, Ordering.then_eq_eq, compare_eq_iff_eq, comparePaths_eq_eq_iff]
  constructor
  · rintro ⟨hostname, path, process, scheduler⟩
    exact ⟨hostname, path, process, scheduler⟩
  · rintro ⟨hostname, path, process, scheduler⟩
    exact ⟨hostname, path, process, scheduler⟩

theorem isLE_cmp_trans (a b c : RouteRecord) (hab : (cmp a b).isLE) (hbc : (cmp b c).isLE) :
    (cmp a c).isLE :=
  Std.TransCmp.isLE_trans hab hbc

theorem isLE_cmp_total (a b : RouteRecord) : (cmp a b).isLE || (cmp b a).isLE :=
  isLE_total a b

/-- Records that keep what orders them can be changed before or after sorting. -/
theorem map_sort {f : RouteRecord → RouteRecord} (keeps : ∀ r, (f r).Tied r)
    (records : List RouteRecord) : (sort records).map f = sort (records.map f) := by
  refine List.map_mergeSort fun a _ b _ => ?_
  simp only [cmp, (keeps a).hostname, (keeps b).hostname, (keeps a).path, (keeps b).path,
    (keeps a).process, (keeps b).process, (keeps a).scheduler, (keeps b).scheduler]

end RouteRecord

/-! ## Backends -/

theorem Backend.compare_eq_lt_iff {a b : Backend} : compare a b = .lt ↔ a.Precedes b := by
  have unfolded : compare a b = (compare a.address b.address).then
      ((compare a.port b.port).then (compare a.containerPort b.containerPort)) := rfl
  simp only [unfolded, Ordering.then_eq_lt, compare_lt_iff_lt, compare_eq_iff_eq,
    Std.compare_eq_lt, Std.compare_eq_iff_eq]
  constructor
  · rintro (h | ⟨address, h | ⟨port, h⟩⟩)
    · exact .address h
    · exact .port address h
    · exact .containerPort address port h
  · rintro (h | ⟨address, h⟩ | ⟨address, port, h⟩)
    · exact .inl h
    · exact .inr ⟨address, .inl h⟩
    · exact .inr ⟨address, .inr ⟨port, h⟩⟩

end MeshControl
