import MeshControl.Proofs.BackendSet

/-!
# Backend sets in the order of insertion

A backend set does to its list what one would do to a list of entries that are known by address and
port. An addition appends an entry unless its address and port are there, and a removal takes out
the one entry with the address and the port. A set looks for more than one entry to remove, but that
does not show, since no two share address and port.

## Main definitions

* `BackendSet.Change.replay` — what a change does to a list of entries.
* `BackendSet.toList_changeAll` — the list of a set after any changes.
* `BackendSet.changeAll_replays` — with that, what changes report, and which of them undo others.
-/

namespace MeshControl.BackendSet

/-- The effect of a change on a list in which no two entries share address and port. -/
def Change.replay (l : List Backend) : Change → List Backend
  | add b => if ∃ a ∈ l, a.address = b.address ∧ a.port = b.port then l else l ++ [b]
  | remove b => l.eraseP fun a => a.address = b.address ∧ a.port = b.port

/-- What is told of a change to whoever asks for it. -/
def Change.reported (s : BackendSet) : Change → Bool
  | add b => s.inserts b
  | remove b => s.removes b

/-! ## Addresses and ports -/

variable {s : BackendSet} {b : Backend}

theorem hasEndpoint_iff_exists :
    s.hasEndpoint b ↔ ∃ a ∈ s.toList, a.address = b.address ∧ a.port = b.port := by
  simp only [hasEndpoint, List.any_eq_true, Backend.sameEndpoint_iff]

theorem distinct_iff_pairwise : s.Distinct ↔
    s.toList.Pairwise fun a b => a.address ≠ b.address ∨ a.port ≠ b.port := by
  have differ : ∀ a b : Backend, a.key ≠ b.key ↔ a.address ≠ b.address ∨ a.port ≠ b.port := by
    intro a b
    rw [Ne, ← Backend.sameEndpoint_iff_key, Backend.sameEndpoint_iff, not_and_or]
  rw [Distinct, List.Nodup, List.pairwise_map]
  simp only [differ]

/-- Of entries of which one at most is meant, leaving out all that are meant takes out the first. -/
theorem filter_eq_eraseP {α : Type} {p : α → Bool} {l : List α}
    (once : l.Pairwise fun a b => ¬ (p a ∧ p b)) : l.filter (!p ·) = l.eraseP p := by
  induction l with
  | nil => rfl
  | cons a l ih =>
    obtain ⟨others, rest⟩ := List.pairwise_cons.mp once
    by_cases meant : p a
    · have kept : l.filter (!p ·) = l :=
        List.filter_eq_self.mpr fun b hb => by simpa [meant] using others b hb
      simp [meant, kept]
    · simp [meant, ih rest]

/-! ## One change -/

theorem Distinct.toList_remove_eq (h : s.Distinct) (b : Backend) : (s.remove b).toList =
    s.toList.eraseP fun a => a.address = b.address ∧ a.port = b.port := by
  have same : (fun a => a.sameEndpoint b) =
      fun a : Backend => decide (a.address = b.address ∧ a.port = b.port) := by
    funext a
    rw [Bool.eq_iff_iff, Backend.sameEndpoint_iff, decide_eq_true_eq]
  rw [toList_remove, ← same]
  refine filter_eq_eraseP ((distinct_iff_pairwise.mp h).imp ?_)
  rintro a c differ ⟨ha, hc⟩
  rw [Backend.sameEndpoint_iff] at ha hc
  exact differ.elim (· (ha.1.trans hc.1.symm)) (· (ha.2.trans hc.2.symm))

theorem Distinct.toList_change (h : s.Distinct) (c : Change) :
    (s.change c).toList = c.replay s.toList := by
  cases c with
  | add b => simp only [BackendSet.change, toList_insert, Change.replay, hasEndpoint_iff_exists]
  | remove b => exact h.toList_remove_eq b

/-- A change reports whether the set is another one after it. -/
theorem reported_iff (s : BackendSet) (c : Change) : c.reported s ↔ s.change c ≠ s := by
  cases c with
  | add b =>
    by_cases full : s.hasEndpoint b
    · simp [Change.reported, inserts, change, insert_of_hasEndpoint, full]
    · have longer : s.insert b ≠ s := by
        intro same
        have lengths := congrArg (·.toList.length) same
        simp [insert, full] at lengths
      simpa [Change.reported, inserts, change, full] using longer
  | remove b =>
    have fewer : (s.remove b).toList.length = s.toList.length ↔ s.remove b = s := by
      constructor
      · intro lengths
        have kept : (s.remove b).toList = s.toList :=
          List.filter_sublist.eq_of_length lengths
        exact congrArg BackendSet.mk kept
      · intro same
        rw [same]
    simp only [Change.reported, removes, change, decide_eq_true_eq, Ne, fewer]

/-! ## Any changes -/

theorem Distinct.toList_changeAll (h : s.Distinct) (cs : List Change) :
    (s.changeAll cs).toList = cs.foldl Change.replay s.toList := by
  induction cs generalizing s with
  | nil => rfl
  | cons c cs ih => rw [changeAll_cons, ih (h.change c), h.toList_change, List.foldl_cons]

/-- Collecting a list is adding its backends. -/
theorem ofList_eq_changeAll (l : List Backend) : ofList l = empty.changeAll (l.map .add) := by
  rw [ofList, changeAll, List.foldl_map]
  rfl

theorem distinct_ofList (l : List Backend) : (ofList l).Distinct :=
  ofList_eq_changeAll l ▸ distinct_empty.changeAll _

/-- After a list is collected and any changes are made, no two backends of a set share address and
port. They are, in order, what the changes leave of a list of entries known by address and port. A
change reports whether it changed something, a set that is collected again is the same, and removing
a backend undoes its insertion in a set without its address and port. -/
theorem changeAll_replays (collected : List Backend) (changes : List Change) :
    let s := (ofList collected).changeAll changes
    (s.toList.Pairwise fun a b => a.address ≠ b.address ∨ a.port ≠ b.port) ∧
    s.toList = (collected.map Change.add ++ changes).foldl Change.replay [] ∧
    (∀ c : Change, c.reported s ↔ s.change c ≠ s) ∧
    ofList s.toList = s ∧
    ∀ b, (∀ a ∈ s.toList, a.address ≠ b.address ∨ a.port ≠ b.port) →
      (s.insert b).remove b = s := by
  intro s
  have distinct : s.Distinct := (distinct_ofList collected).changeAll changes
  refine ⟨distinct_iff_pairwise.mp distinct, ?_, reported_iff s, ?_, fun b vacant => ?_⟩
  · have whole : s = empty.changeAll (collected.map .add ++ changes) := by
      rw [changeAll_append, ← ofList_eq_changeAll]
    rw [whole, distinct_empty.toList_changeAll, toList_empty]
  · exact congrArg BackendSet.mk (toList_ofList distinct)
  · have absent : ¬ s.hasEndpoint b := by
      intro full
      obtain ⟨a, ha, address, port⟩ := hasEndpoint_iff_exists.mp full
      exact (vacant a ha).elim (· address) (· port)
    rw [remove_insert absent, if_pos rfl]

end MeshControl.BackendSet
