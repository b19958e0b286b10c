import Mathlib.Data.List.Induction

/-!
# Edits of keyed stores

All directories are edited alike: a value is put under its key, a key is dropped, or everything is
replaced by the values of a list. Such an edit comes down to single writes, and what a row of writes
leaves under a key is the last value that was put there, unless it was taken away since.

## Main definitions

* `Write`, `Edit` — single changes, and what callers ask for.
* `Store` — how a kind of store makes them, with `Store.write`, `Store.edit` and `Store.run`.
* `Write.Standing` — the value that a row of writes leaves under a key.
* `Store.Obeys` — a store answers look-ups as its writes tell.
* `Store.Obeys.get?_run_eq_some_iff` — what such a store holds after any edits.
-/

namespace MeshControl

universe u v w x

/-- A change to the values that are stored under their keys. -/
inductive Write (κ : Type u) (α : Type v) where
  | put (a : α)
  | drop (k : κ)
  | clear

/-- What is asked of a store of values under their keys. -/
inductive Edit (κ : Type u) (α : Type v) where
  | put (a : α)
  | drop (k : κ)
  /-- Forget everything, and put the values of a list in order. -/
  | replace (l : List α)

variable {κ : Type u} {α : Type v} {β : Type w} {σ : Type x}

namespace Edit

/-- The writes that an edit comes down to. -/
def writes : Edit κ α → List (Write κ α)
  | put a => [.put a]
  | drop k => [.drop k]
  | replace l => .clear :: l.map .put

/-- The values that an edit puts. -/
def values : Edit κ α → List α
  | put a => [a]
  | drop _ => []
  | replace l => l

theorem put_mem_writes {e : Edit κ α} {a : α} : .put a ∈ e.writes ↔ a ∈ e.values := by
  cases e <;> simp [writes, values]

end Edit

/-! ## Writes -/

namespace Write

/-- A write decides what a key holds. -/
def Touches (key : α → κ) (k : κ) : Write κ α → Prop
  | put a => key a = k
  | drop k' => k' = k
  | clear => True

instance [DecidableEq κ] (key : α → κ) (k : κ) : DecidablePred (Touches key k)
  | put a => inferInstanceAs (Decidable (key a = k))
  | drop k' => inferInstanceAs (Decidable (k' = k))
  | clear => .isTrue trivial

/-- The value that a write puts, if it puts one. -/
def value? : Write κ α → Option α
  | put a => some a
  | drop _ | clear => none

/-- A value has the key, and after the last time it was put nothing touched the key. -/
structure Standing (key : α → κ) (writes : List (Write κ α)) (k : κ) (a : α) : Prop where
  key_eq : key a = k
  last : ∃ before after, writes = before ++ put a :: after ∧ ∀ w ∈ after, ¬ w.Touches key k

variable {key : α → κ} {k : κ} {a : α}

theorem not_standing_nil : ¬ Standing key [] k a := by
  rintro ⟨-, before, after, split, -⟩
  simp at split

/-- The last write is the one that counts, or it does not touch the key. -/
theorem standing_concat {writes : List (Write κ α)} {w : Write κ α} :
    Standing key (writes ++ [w]) k a ↔
      (key a = k ∧ w = .put a) ∨ (¬ w.Touches key k ∧ Standing key writes k a) := by
  constructor
  · rintro ⟨key_eq, before, after, split, untouched⟩
    induction after using List.reverseRecOn with
    | nil => exact .inl ⟨key_eq, (List.append_inj_right' split rfl |> List.singleton_inj.mp)⟩
    | append_singleton after w' _ =>
      rw [← List.cons_append, ← List.append_assoc] at split
      obtain ⟨rfl, same⟩ := List.append_inj' split rfl
      obtain rfl := List.singleton_inj.mp same
      refine .inr ⟨untouched w (List.mem_append_right _ List.mem_cons_self), key_eq, before, after,
        rfl, fun w' hw' => untouched w' (List.mem_append_left _ hw')⟩
  · rintro (⟨key_eq, rfl⟩ | ⟨untouched, key_eq, before, after, rfl, rest⟩)
    · exact ⟨key_eq, writes, [], rfl, fun _ => nofun⟩
    · refine ⟨key_eq, before, after ++ [w], by simp, fun w' hw' => ?_⟩
      obtain hw' | hw' := List.mem_append.mp hw'
      · exact rest w' hw'
      · rwa [List.mem_singleton.mp hw']

end Write

/-! ## Stores -/

/-- How a kind of store is changed. -/
structure Store (κ : Type u) (α : Type v) (σ : Type x) where
  empty : σ
  put : σ → α → σ
  drop : σ → κ → σ
  replace : σ → List α → σ
  replace_eq : ∀ s l, replace s l = l.foldl put empty

namespace Store

variable (S : Store κ α σ)

def write (s : σ) : Write κ α → σ
  | .put a => S.put s a
  | .drop k => S.drop s k
  | .clear => S.empty

def edit (s : σ) : Edit κ α → σ
  | .put a => S.put s a
  | .drop k => S.drop s k
  | .replace l => S.replace s l

/-- The store after edits in a row. -/
def run (edits : List (Edit κ α)) : σ := edits.foldl S.edit S.empty

theorem foldl_writes (s : σ) (e : Edit κ α) : e.writes.foldl S.write s = S.edit s e := by
  cases e with
  | put a => rfl
  | drop k => rfl
  | replace l =>
    rw [Edit.writes, List.foldl_cons, List.foldl_map]
    exact (S.replace_eq s l).symm

/-- Edits come down to their writes. -/
theorem run_eq_foldl_write (edits : List (Edit κ α)) :
    S.run edits = (edits.flatMap Edit.writes).foldl S.write S.empty := by
  simp only [List.foldl_flatMap, foldl_writes]
  rfl

variable {S}

/-- What every write keeps up holds after any writes. -/
theorem foldl_write_induction {P : σ → Prop} (start : P S.empty)
    (step : ∀ s w, P s → P (S.write s w)) (writes : List (Write κ α)) :
    P (writes.foldl S.write S.empty) := by
  induction writes using List.reverseRecOn with
  | nil => exact start
  | append_singleton writes w ih =>
    rw [List.foldl_append]
    exact step _ w ih

/-- A store answers look-ups as its writes tell. What is put may be stored in another form. -/
structure Obeys [DecidableEq κ] (S : Store κ α σ) (key : α → κ) (form : α → β)
    (get? : σ → κ → Option β) : Prop where
  put : ∀ s a k, get? (S.put s a) k = if k = key a then some (form a) else get? s k
  drop : ∀ s k' k, get? (S.drop s k') k = if k = k' then none else get? s k
  empty : ∀ k, get? S.empty k = none

namespace Obeys

variable [DecidableEq κ] {key : α → κ} {form : α → β} {get? : σ → κ → Option β} {k : κ} {b : β}

theorem get?_write (obeys : S.Obeys key form get?) (s : σ) (w : Write κ α) :
    get? (S.write s w) k = if w.Touches key k then w.value?.map form else get? s k := by
  cases w with
  | put a => simp only [Store.write, obeys.put, Write.Touches, Write.value?, eq_comm, Option.map]
  | drop k' => simp only [Store.write, obeys.drop, Write.Touches, Write.value?, eq_comm, Option.map]
  | clear => simp [Store.write, obeys.empty, Write.Touches, Write.value?]

/-- What a key holds after writes is decided by the last one that touches it. -/
theorem get?_foldl (obeys : S.Obeys key form get?) (s : σ) (writes : List (Write κ α)) :
    get? (writes.foldl S.write s) k =
      ((writes.filter (·.Touches key k)).getLast?.map fun w => w.value?.map form).getD
        (get? s k) := by
  induction writes using List.reverseRecOn with
  | nil => rfl
  | append_singleton writes w ih =>
    rw [List.foldl_append, List.foldl_cons, List.foldl_nil, obeys.get?_write, List.filter_append]
    by_cases touches : w.Touches key k
    · simp [touches]
    · simp [touches, ih]

/-- A key that no write of an edit touches holds what it held. -/
theorem get?_edit (obeys : S.Obeys key form get?) (s : σ) {e : Edit κ α}
    (untouched : ∀ w ∈ e.writes, ¬ w.Touches key k) : get? (S.edit s e) k = get? s k := by
  have others : e.writes.filter (·.Touches key k) = [] :=
    List.filter_eq_nil_iff.mpr fun w hw touches => untouched w hw (of_decide_eq_true touches)
  rw [← S.foldl_writes, obeys.get?_foldl, others]
  rfl

/-- After a replacement a key holds what the list has last for it. -/
theorem get?_replace (obeys : S.Obeys key form get?) (s : σ) (l : List α) :
    get? (S.replace s l) k = (l.filter (key · = k)).getLast?.map form := by
  rw [S.replace_eq]
  induction l using List.reverseRecOn with
  | nil => exact obeys.empty k
  | append_singleton l a ih =>
    rw [List.foldl_append, List.foldl_cons, List.foldl_nil, obeys.put, List.filter_append]
    by_cases same : key a = k
    · simp [same]
    · simp [same, Ne.symm same, ih]

/-- A store holds after any writes what they leave standing. -/
theorem get?_foldl_eq_some_iff (obeys : S.Obeys key form get?) (writes : List (Write κ α)) :
    get? (writes.foldl S.write S.empty) k = some b ↔
      ∃ a, Write.Standing key writes k a ∧ form a = b := by
  induction writes using List.reverseRecOn with
  | nil => simp [obeys.empty, Write.not_standing_nil]
  | append_singleton writes w ih =>
    rw [List.foldl_append, List.foldl_cons, List.foldl_nil, obeys.get?_write]
    simp only [Write.standing_concat, or_and_right, exists_or]
    by_cases touches : w.Touches key k
    · rw [if_pos touches]
      cases w <;> simp_all [Write.Touches, Write.value?]
    · rw [if_neg touches, ih]
      cases w <;> simp_all [Write.Touches]

theorem get?_run_eq_some_iff (obeys : S.Obeys key form get?) (edits : List (Edit κ α)) :
    get? (S.run edits) k = some b ↔
      ∃ a, Write.Standing key (edits.flatMap Edit.writes) k a ∧ form a = b := by
  rw [run_eq_foldl_write, obeys.get?_foldl_eq_some_iff]

/-- What a store holds after edits was put there by one of them. -/
theorem exists_value (obeys : S.Obeys key form get?) {edits : List (Edit κ α)}
    (h : get? (S.run edits) k = some b) :
    ∃ e ∈ edits, ∃ a ∈ e.values, key a = k ∧ form a = b := by
  obtain ⟨a, ⟨key_eq, before, after, split, -⟩, stored⟩ := (obeys.get?_run_eq_some_iff edits).mp h
  have member : .put a ∈ edits.flatMap Edit.writes := by simp [split]
  obtain ⟨e, he, put⟩ := List.mem_flatMap.mp member
  exact ⟨e, he, a, Edit.put_mem_writes.mp put, key_eq, stored⟩

end Obeys

end Store

end MeshControl
