import Mathlib.Data.List.DropRight
import Mathlib.Data.List.Nodup
import MeshControl.Backend

/-!
# Backend sets as maps

A backend set holds at most one backend per address and port, its key. Looked at key by key, an
insertion fills an empty place and leaves a full one alone, and a removal empties its place.
What a row of changes does to a key therefore depends on the changes of that key alone, and it
comes out the same when the row is gone through once more.

## Main definitions

* `Backend.key` — the address and the port of a backend.
* `BackendSet.get?` — the backend with a key.
* `BackendSet.Distinct` — no two backends share a key.
* `BackendSet.Change`, `BackendSet.changeAll` — insertions and removals in a row.
* `BackendSet.settle` — what a row of changes leaves at one key.
-/

namespace MeshControl

/-- An address and a port. -/
structure Backend.Key where
  address : String
  port : UInt16
  deriving DecidableEq

/-- Backends with the same key are the same to a backend set. -/
def Backend.key (b : Backend) : Backend.Key := ⟨b.address, b.port⟩

theorem Backend.sameEndpoint_iff_key {a b : Backend} : a.sameEndpoint b ↔ a.key = b.key := by
  simp [sameEndpoint_iff, key]

namespace BackendSet

/-- The first backend with a key. -/
def get? (s : BackendSet) (k : Backend.Key) : Option Backend := s.toList.find? (·.key = k)

def Distinct (s : BackendSet) : Prop := (s.toList.map Backend.key).Nodup

/-! ## Look-ups -/

@[simp] theorem get?_empty (k : Backend.Key) : (empty : BackendSet).get? k = none := rfl

theorem key_of_get? {s : BackendSet} {k : Backend.Key} {b : Backend} (h : s.get? k = some b) :
    b.key = k := by
  simpa using List.find?_some h

theorem mem_of_get? {s : BackendSet} {k : Backend.Key} {b : Backend} (h : s.get? k = some b) :
    b ∈ s.toList :=
  List.mem_of_find?_eq_some h

theorem isSome_get?_iff {s : BackendSet} {k : Backend.Key} :
    (s.get? k).isSome ↔ ∃ b ∈ s.toList, b.key = k := by
  simp [get?]

theorem hasEndpoint_iff {s : BackendSet} {b : Backend} :
    s.hasEndpoint b ↔ (s.get? b.key).isSome := by
  simp [hasEndpoint, Backend.sameEndpoint_iff_key, isSome_get?_iff]

theorem get?_insert (s : BackendSet) (b : Backend) (k : Backend.Key) :
    (s.insert b).get? k = if b.key = k then some ((s.get? k).getD b) else s.get? k := by
  by_cases full : (s.get? b.key).isSome
  · have same : s.insert b = s := if_pos (hasEndpoint_iff.mpr full)
    rw [same]
    split_ifs with hk
    · subst hk
      obtain ⟨a, ha⟩ := Option.isSome_iff_exists.mp full
      simp [ha]
    · rfl
  · have grown : s.insert b = ⟨s.toList ++ [b]⟩ :=
      if_neg fun h => full (hasEndpoint_iff.mp h)
    have vacant : s.get? b.key = none := by simpa using full
    rw [grown]
    split_ifs with hk
    · subst hk
      rw [vacant]
      unfold get? at vacant ⊢
      simp [List.find?_append, vacant]
    · simp [get?, List.find?_append, hk]

theorem get?_remove (s : BackendSet) (b : Backend) (k : Backend.Key) :
    (s.remove b).get? k = if b.key = k then none else s.get? k := by
  simp only [get?, toList_remove, List.find?_filter]
  split_ifs with hk
  · simp [Backend.sameEndpoint_iff_key, ← Bool.not_eq_true, ← hk]
  · congr 1
    funext a
    have other : a.key = k → ¬ a.key = b.key := fun ha hb => hk (hb.symm.trans ha)
    simpa [Backend.sameEndpoint_iff_key, ← Bool.not_eq_true] using other

/-! ## Insertions and removals that leave a set as it is -/

theorem insert_of_hasEndpoint {s : BackendSet} {b : Backend} (h : s.hasEndpoint b) :
    s.insert b = s := if_pos h

theorem remove_of_not_hasEndpoint {s : BackendSet} {b : Backend} (h : ¬ s.hasEndpoint b) :
    s.remove b = s := by
  have kept : s.toList.filter (fun x => !x.sameEndpoint b) = s.toList := by
    refine List.filter_eq_self.mpr fun x hx => ?_
    rw [Bool.not_eq_true', ← Bool.not_eq_true]
    exact fun same => h (List.any_eq_true.mpr ⟨x, hx, same⟩)
  rw [remove, kept]

/-- What a removal takes out of an insertion is what was inserted, or nothing. -/
theorem remove_insert {s : BackendSet} {a b : Backend} (absent : ¬ s.hasEndpoint a) :
    (s.insert b).remove a = if a.key = b.key then s else s.insert b := by
  split_ifs with same
  · have fresh : ¬ s.hasEndpoint b := by rwa [hasEndpoint_iff, ← same, ← hasEndpoint_iff]
    have gone : (!b.sameEndpoint a) = false := by
      simpa [Backend.sameEndpoint_iff_key] using same.symm
    have kept := congrArg toList (remove_of_not_hasEndpoint absent)
    rw [toList_remove] at kept
    rw [insert, if_neg fresh, remove, List.filter_append, kept, List.filter_singleton, gone]
    simp
  · refine remove_of_not_hasEndpoint ?_
    rwa [hasEndpoint_iff, get?_insert, if_neg (Ne.symm same), ← hasEndpoint_iff]

/-! ## Sets without repetition -/

theorem distinct_empty : (empty : BackendSet).Distinct := List.nodup_nil

theorem Distinct.insert {s : BackendSet} (h : s.Distinct) (b : Backend) :
    (s.insert b).Distinct := by
  by_cases full : s.hasEndpoint b
  · rwa [show s.insert b = s from if_pos full]
  · have fresh : b.key ∉ s.toList.map Backend.key := by
      intro hb
      obtain ⟨a, ha, hk⟩ := List.mem_map.mp hb
      exact full (hasEndpoint_iff.mpr (isSome_get?_iff.mpr ⟨a, ha, hk⟩))
    rw [show s.insert b = ⟨s.toList ++ [b]⟩ from if_neg full]
    unfold Distinct
    rw [List.map_append, List.map_singleton]
    exact List.Nodup.append h (List.nodup_singleton _) (List.disjoint_singleton.mpr fresh)

theorem Distinct.remove {s : BackendSet} (h : s.Distinct) (b : Backend) :
    (s.remove b).Distinct :=
  List.Nodup.sublist (List.Sublist.map _ List.filter_sublist) h

theorem Distinct.mem_iff {s : BackendSet} (h : s.Distinct) {b : Backend} :
    b ∈ s.toList ↔ s.get? b.key = some b := by
  refine ⟨fun hb => ?_, mem_of_get?⟩
  obtain ⟨a, ha⟩ := Option.isSome_iff_exists.mp (isSome_get?_iff.mpr ⟨b, hb, rfl⟩)
  have eq : a = b := List.inj_on_of_nodup_map h (mem_of_get? ha) hb (key_of_get? ha)
  rw [ha, eq]

/-- Sets that answer every look-up alike differ in their order alone. -/
theorem Distinct.perm_iff {s t : BackendSet} (hs : s.Distinct) (ht : t.Distinct) :
    s.toList.Perm t.toList ↔ ∀ k, s.get? k = t.get? k := by
  rw [List.perm_ext_iff_of_nodup (List.Nodup.of_map _ hs) (List.Nodup.of_map _ ht)]
  constructor
  · intro h k
    ext b
    constructor
    · intro hb
      have hk := key_of_get? hb
      subst hk
      exact ht.mem_iff.mp ((h b).mp (hs.mem_iff.mpr hb))
    · intro hb
      have hk := key_of_get? hb
      subst hk
      exact hs.mem_iff.mp ((h b).mpr (ht.mem_iff.mpr hb))
  · intro h b
    rw [hs.mem_iff, ht.mem_iff, h]

theorem toList_foldl_insert {l : List Backend} {s : BackendSet}
    (h : (⟨s.toList ++ l⟩ : BackendSet).Distinct) : (l.foldl insert s).toList = s.toList ++ l := by
  induction l generalizing s with
  | nil => simp
  | cons b l ih =>
    have fresh : ¬ s.hasEndpoint b := by
      intro full
      obtain ⟨a, ha, same⟩ := isSome_get?_iff.mp (hasEndpoint_iff.mp full)
      rw [Distinct, List.map_append, List.map_cons, List.nodup_middle] at h
      exact (List.nodup_cons.mp h).1
        (List.mem_append_left _ (same ▸ List.mem_map_of_mem ha))
    have grown : (s.insert b).toList = s.toList ++ [b] := by
      rw [toList_insert, if_neg fresh]
    rw [List.foldl_cons, ih, grown, List.append_assoc]
    · rfl
    · rw [grown, List.append_assoc]
      exact h

/-- A list without repetition is taken as it is. -/
theorem toList_ofList {l : List Backend} (h : (⟨l⟩ : BackendSet).Distinct) :
    (ofList l).toList = l :=
  toList_foldl_insert (s := empty) h

/-! ## Changes -/

inductive Change where
  | add (b : Backend)
  | remove (b : Backend)
  deriving DecidableEq

namespace Change

def backend : Change → Backend
  | add b | remove b => b

def key (c : Change) : Backend.Key := c.backend.key

def isAdd : Change → Bool
  | add _ => true
  | remove _ => false

/-- The effect of a change on what its key holds. -/
def act (held : Option Backend) : Change → Option Backend
  | add b => some (held.getD b)
  | remove _ => none

end Change

def change (s : BackendSet) : Change → BackendSet
  | .add b => s.insert b
  | .remove b => s.remove b

/-- The effect of changes in a row. -/
def changeAll (s : BackendSet) (cs : List Change) : BackendSet := cs.foldl change s

/-- What changes of one key leave there. -/
def settle (held : Option Backend) (cs : List Change) : Option Backend := cs.foldl Change.act held

@[simp] theorem changeAll_nil (s : BackendSet) : s.changeAll [] = s := rfl

@[simp] theorem changeAll_cons (s : BackendSet) (c : Change) (cs : List Change) :
    s.changeAll (c :: cs) = (s.change c).changeAll cs := rfl

theorem changeAll_append (s : BackendSet) (cs ds : List Change) :
    s.changeAll (cs ++ ds) = (s.changeAll cs).changeAll ds :=
  List.foldl_append

theorem Distinct.change {s : BackendSet} (h : s.Distinct) (c : Change) :
    (s.change c).Distinct := by
  cases c with
  | add b => exact h.insert b
  | remove b => exact h.remove b

theorem Distinct.changeAll {s : BackendSet} (h : s.Distinct) (cs : List Change) :
    (s.changeAll cs).Distinct := by
  induction cs generalizing s with
  | nil => exact h
  | cons c cs ih => exact ih (h.change c)

theorem get?_change (s : BackendSet) (c : Change) (k : Backend.Key) :
    (s.change c).get? k = if c.key = k then c.act (s.get? k) else s.get? k := by
  cases c with
  | add b => exact get?_insert s b k
  | remove b => exact get?_remove s b k

/-- The changes of other keys do not matter to a key. -/
theorem get?_changeAll (s : BackendSet) (cs : List Change) (k : Backend.Key) :
    (s.changeAll cs).get? k = settle (s.get? k) (cs.filter (·.key = k)) := by
  induction cs generalizing s with
  | nil => rfl
  | cons c cs ih =>
    rw [changeAll_cons, ih, get?_change]
    by_cases hk : c.key = k <;> simp [settle, hk]

/-! ## One key -/

theorem settle_append (held : Option Backend) (cs ds : List Change) :
    settle held (cs ++ ds) = settle (settle held cs) ds :=
  List.foldl_append

/-- What is held outlives additions. -/
theorem settle_some_of_adds {b : Backend} {cs : List Change} (h : ∀ c ∈ cs, c.isAdd) :
    settle (some b) cs = some b := by
  induction cs with
  | nil => rfl
  | cons c cs ih =>
    obtain ⟨a, rfl⟩ : ∃ a, c = .add a := by
      cases c with
      | add a => exact ⟨a, rfl⟩
      | remove a => simpa [Change.isAdd] using h (.remove a) List.mem_cons_self
    exact ih fun c hc => h c (List.mem_cons_of_mem _ hc)

/-- After a removal it does not matter what was held before. -/
theorem settle_eq_of_remove {cs : List Change} (h : ∃ c ∈ cs, c.isAdd = false)
    (held held' : Option Backend) : settle held cs = settle held' cs := by
  induction cs generalizing held held' with
  | nil => simp at h
  | cons c cs ih =>
    cases c with
    | remove b => rfl
    | add b =>
      obtain ⟨c, hc, hr⟩ := h
      rcases List.mem_cons.mp hc with rfl | hc
      · simp [Change.isAdd] at hr
      · exact ih ⟨c, hc, hr⟩ _ _

/-- Going through the same changes once more leaves the same. -/
theorem settle_settle (held : Option Backend) (cs : List Change) :
    settle (settle held cs) cs = settle held cs := by
  by_cases h : ∃ c ∈ cs, c.isAdd = false
  · exact settle_eq_of_remove h _ _
  · have adds : ∀ c ∈ cs, c.isAdd := by simpa using h
    cases e : settle held cs with
    | some b => exact settle_some_of_adds adds
    | none =>
      -- Additions leave something behind unless there are none.
      cases cs with
      | nil => rfl
      | cons c cs =>
        obtain ⟨a, rfl⟩ : ∃ a, c = .add a := by
          cases c with
          | add a => exact ⟨a, rfl⟩
          | remove a => simpa [Change.isAdd] using adds (.remove a) List.mem_cons_self
        have kept : settle held (.add a :: cs) = some (held.getD a) :=
          settle_some_of_adds fun c hc => adds c (List.mem_cons_of_mem _ hc)
        simp [kept] at e

/-- An empty key ends up with the first addition after the last removal. -/
theorem settle_none (cs : List Change) :
    settle none cs = (cs.rtakeWhile Change.isAdd).head?.map Change.backend := by
  induction cs using List.reverseRecOn with
  | nil => rfl
  | append_singleton cs c ih =>
    rw [settle_append, ih, List.rtakeWhile_concat]
    cases c with
    | remove b => rfl
    | add b =>
      cases cs.rtakeWhile Change.isAdd <;>
        simp [settle, Change.act, Change.isAdd, Change.backend]

theorem settle_none_eq_some_iff {cs : List Change} {b : Backend} :
    settle none cs = some b ↔ (cs.rtakeWhile Change.isAdd).head? = some (.add b) := by
  rw [settle_none]
  cases h : (cs.rtakeWhile Change.isAdd).head? with
  | none => simp
  | some c =>
    have hc : c.isAdd := List.mem_rtakeWhile_imp (List.mem_of_mem_head? h)
    cases c with
    | add a => simp [Change.backend]
    | remove a => simp [Change.isAdd] at hc

/-- An empty key ends up full when the last change is an addition. -/
theorem isSome_settle_none_iff (cs : List Change) :
    (settle none cs).isSome ↔ ∃ b, cs.getLast? = some (.add b) := by
  induction cs using List.reverseRecOn with
  | nil => simp [settle]
  | append_singleton cs c _ =>
    rw [settle_append, List.getLast?_concat]
    cases c <;> simp [settle, Change.act]

end BackendSet

end MeshControl
