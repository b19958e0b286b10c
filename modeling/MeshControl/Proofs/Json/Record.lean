import Mathlib
import MeshControl.Json.Decode

/-!
# Reading records

A record is written as an object with one member for each of its fields that is there. Since the
names of the fields differ, every field is found again, and members that the record does not know
are passed over.

## Main statements

* `Json.Record.member_eq_ok`, `Json.Record.member_eq_absent` — a member that is there, and one that
  is not.
* `Json.record_eq_ok` — a record is read if its fields are.
-/

namespace MeshControl.Json

variable {α : Type}

theorem mem_present {ms : List (String × Option Json)} {m : String × Json} :
    m ∈ present ms ↔ (m.1, some m.2) ∈ ms := by
  rw [present, List.mem_filterMap]
  constructor
  · rintro ⟨⟨name, o⟩, there, made⟩
    obtain ⟨v, rfl, rfl⟩ := Option.map_eq_some_iff.mp made
    exact there
  · exact fun there => ⟨_, there, rfl⟩

/-- Fields with different names are written with different names. -/
theorem nodup_present {ms : List (String × Option Json)} (h : (ms.map (·.1)).Nodup) :
    ((present ms).map (·.1)).Nodup := by
  refine h.sublist ?_
  induction ms with
  | nil => exact .slnil
  | cons m ms ih =>
    obtain ⟨name, _ | v⟩ := m
    · exact (ih h.of_cons).cons _
    · exact (ih h.of_cons).cons_cons _

namespace Record

variable {r : Record} {name : String} {value : Decoder α} {absent : Checked α}

theorem filterMap_zipIdx_eq_nil {l : List (String × Json)} (gone : ∀ m ∈ l, m.1 ≠ name) (n : Nat) :
    (l.zipIdx n).filterMap (fun m => if m.1.1 = name then some (m.2, m.1.2) else none) = [] := by
  rw [List.filterMap_eq_nil_iff]
  intro m hm
  exact if_neg (gone m.1 (List.fst_mem_of_mem_zipIdx hm))

/-- A member whose name is not repeated is found. -/
theorem exists_find_eq (h : (r.members.map (·.1)).Nodup) {v : Json}
    (there : (name, v) ∈ r.members) : ∃ place, r.find name = [(place, v)] := by
  obtain ⟨before, after, split⟩ := List.append_of_mem there
  rw [split, List.map_append, List.map_cons, List.nodup_middle, List.nodup_cons,
    List.mem_append, not_or] at h
  have goneBefore : ∀ m ∈ before, m.1 ≠ name := by
    intro m hm same
    exact h.1.1 (List.mem_map.mpr ⟨m, hm, same⟩)
  have goneAfter : ∀ m ∈ after, m.1 ≠ name := by
    intro m hm same
    exact h.1.2 (List.mem_map.mpr ⟨m, hm, same⟩)
  refine ⟨before.length, ?_⟩
  rw [find, split, List.zipIdx_append, List.filterMap_append, List.zipIdx_cons,
    filterMap_zipIdx_eq_nil goneBefore, List.filterMap_cons, filterMap_zipIdx_eq_nil goneAfter]
  simp

theorem find_eq_nil (gone : ∀ m ∈ r.members, m.1 ≠ name) : r.find name = [] :=
  filterMap_zipIdx_eq_nil gone 0

theorem member_eq_ok (h : (r.members.map (·.1)).Nodup) {v : Json} (there : (name, v) ∈ r.members)
    {a : α} (decoded : value v = .ok a) : r.member name value absent = .ok a := by
  obtain ⟨place, found⟩ := exists_find_eq h there
  rw [member, found]
  simp only [decoded]
  rfl

theorem member_eq_absent (gone : ∀ m ∈ r.members, m.1 ≠ name) :
    r.member name value absent = absent := by
  rw [member, find_eq_nil gone]

/-- All members that the record does not know have the form of JSON. -/
theorem unknown_eq_ok {names : List String}
    (h : ∀ m ∈ r.members, m.1 ∉ names → ¬ m.2.endsBroken ∧ ¬ m.2.isNameless) :
    r.unknown names = .ok () := by
  have none : r.members.zipIdx.find? (fun m =>
      !names.contains m.1.1 && (m.1.2.endsBroken || m.1.2.isNameless)) = none := by
    rw [List.find?_eq_none]
    intro m hm
    have sound := h m.1 (List.fst_mem_of_mem_zipIdx hm)
    simpa using sound
  rw [unknown, none]

end Record

/-! ## Fields -/

theorem asNullable_eq_ok {value : Decoder α} {v : Json} (notNull : v ≠ .null) {a : α}
    (decoded : value v = .ok a) : asNullable value v = .ok (some a) := by
  have form : asNullable value v = (value v).map some := by
    cases v with
    | null => exact absurd rfl notNull
    | _ => rfl
  rw [form, decoded]
  rfl

section Present

variable {ms : List (String × Option Json)} {name : String} {value : Decoder α}

theorem required_present (h : (ms.map (·.1)).Nodup) {v : Json} (there : (name, some v) ∈ ms) {a : α}
    (decoded : value v = .ok a) : Record.required ⟨present ms⟩ name value = .ok a :=
  Record.member_eq_ok (nodup_present h) (mem_present.mpr there) decoded

theorem withDefault_present (h : (ms.map (·.1)).Nodup) {v : Json} (there : (name, some v) ∈ ms)
    {a b : α} (decoded : value v = .ok a) :
    Record.withDefault ⟨present ms⟩ name b value = .ok a :=
  Record.member_eq_ok (nodup_present h) (mem_present.mpr there) decoded

/-- A field that may be absent is read as it was written. -/
theorem optional_present (h : (ms.map (·.1)).Nodup) {f : α → Json} {o : Option α}
    (there : (name, o.map f) ∈ ms) (decoded : ∀ a, value (f a) = .ok a)
    (notNull : ∀ a, f a ≠ .null) :
    Record.optional ⟨present ms⟩ name value = .ok o := by
  cases o with
  | none =>
    refine Record.member_eq_absent fun m hm same => ?_
    have absent := List.inj_on_of_nodup_map h (mem_present.mp hm) there same
    exact absurd (congrArg Prod.snd absent) nofun
  | some a =>
    exact Record.member_eq_ok (nodup_present h) (mem_present.mpr there)
      (asNullable_eq_ok (notNull a) (decoded a))

end Present

/-- A record is read if its fields are, and the members that it does not know have the form of
JSON. -/
theorem record_eq_ok {names : List String} {body : Record → Checked α}
    {members : List (String × Json)} {a : α}
    (known : ∀ m ∈ members, m.1 ∉ names → ¬ m.2.endsBroken ∧ ¬ m.2.isNameless)
    (h : body ⟨members⟩ = .ok a) : record names body (.object members) = .ok a := by
  have unknown : Record.unknown ⟨members⟩ names = .ok () := Record.unknown_eq_ok known
  simp only [record, asRecord, bind, Except.bind, unknown, h]
  rfl

end MeshControl.Json
