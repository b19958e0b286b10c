import Mathlib
import MeshControl.Proofs.Api.Written

/-!
# Values that round-trip

A written form round-trips if every value is read back from what was written of it. Lists, words and
tables inherit this from their parts, and a record inherits it from its fields, whether they are
always written, left out when they are absent, or left out when they are empty lists.

## Main definitions

* `Json.Lawful` — every value is read back from its written form, and the form from its text.
* `Json.fromBytes`, `Json.rewrite`, `Json.rewriteBytes` — reading a text; reading and writing again.
* `Json.RoundTrips` — what follows for values and for texts.
-/

namespace MeshControl.Json

variable {α β : Type} {f : α → Json} {value : Decoder α}

/-- Every value is read back from its written form, which is itself read back from its text. -/
structure Lawful (f : α → Json) (value : Decoder α) : Prop where
  back : ∀ a, value (f a) = .ok a
  plain : ∀ a, (f a).Plain
  /-- What is there is not written as null, which stands for what is absent. -/
  notNull : ∀ a, f a ≠ .null

/-! ## Texts -/

/-- The value that a text from beginning to end stands for. -/
def fromBytes (value : Decoder α) (bytes : List UInt8) : Option α :=
  let reading := read bytes
  if reading.trailing then none else (value reading.value).toOption

/-- The text of a value. -/
def toBytes (f : α → Json) (a : α) : List UInt8 := Utf8.encode (f a).text

/-- The written form of what a value is read as. -/
def rewrite (f : α → Json) (value : Decoder α) : Decoder Json := fun v => (value v).map f

/-- The text of what a text is read as. -/
def rewriteBytes (f : α → Json) (value : Decoder α) (bytes : List UInt8) : Option (List UInt8) :=
  (fromBytes value bytes).map (toBytes f)

/-- Reading undoes writing, both for values and for texts. What is read and written once is not
changed by reading and writing it again. -/
structure RoundTrips (f : α → Json) (value : Decoder α) : Prop where
  back : ∀ a, value (f a) = .ok a
  back_text : ∀ a, fromBytes value (toBytes f a) = some a
  settled : ∀ v w, rewrite f value v = .ok w → rewrite f value w = .ok w
  settled_text : ∀ bytes bytes', rewriteBytes f value bytes = some bytes' →
    rewriteBytes f value bytes' = some bytes'

theorem Lawful.roundTrips (h : Lawful f value) : RoundTrips f value := by
  have text : ∀ a, fromBytes value (toBytes f a) = some a := by
    intro a
    rw [fromBytes, toBytes, (h.plain a).read_text]
    simp only [h.back]
    rfl
  refine ⟨h.back, text, fun v w first => ?_, fun bytes bytes' first => ?_⟩
  · obtain ⟨a, -, rfl⟩ := map_eq_ok_iff.mp first
    rw [rewrite, h.back]
    rfl
  · obtain ⟨a, -, rfl⟩ := Option.map_eq_some_iff.mp first
    rw [rewriteBytes, text]
    rfl

/-! ## Scalars, words and lists -/

theorem lawful_string : Lawful .string asString := ⟨fun _ => rfl, .string, nofun⟩

theorem lawful_bool : Lawful .bool asBool := ⟨fun _ => rfl, .bool, nofun⟩

theorem lawful_word : Lawful (fun w : UInt32 => ofNat w.toNat) asWord :=
  ⟨asWord_ofNat, plain_word, nofun⟩

theorem lawful_port : Lawful (fun p : UInt16 => ofNat p.toNat) asPort where
  back p := by
    have small : p.toNat < UInt16.size := p.toNat_lt
    simp [asPort, asNat, ofNat, small, Except.map]
  plain p := .nat (p.toNat_lt.trans (by decide))
  notNull := nofun

/-- Values that are written as different words. -/
theorem lawful_asWordOf {word : α → String} {words : List (String × α)}
    (h : ∀ a, words.lookup (word a) = some a) :
    Lawful (fun a => .string (word a)) (asWordOf words) where
  back a := by
    simp only [asWordOf, h]
    rfl
  plain a := .string _
  notNull := nofun

theorem Lawful.asList (h : Lawful f value) : Lawful (fun l => .array (l.map f)) (asList value) where
  back := asList_map h.back
  plain _ := .array (List.forall_mem_map.mpr fun a _ => h.plain a)
  notNull := nofun

theorem Lawful.asTagged (h : Lawful f value) (name : String) :
    Lawful (fun a => .object [(name, f a)]) (asTagged name value) where
  back a := by simp only [Json.asTagged, if_pos, h.back]
  plain a := .object (by simpa using h.plain a)
  notNull := nofun

/-! ## Tables -/

theorem Lawful.asTable (h : Lawful f value) :
    Lawful (fun t => .object (t.entries.map fun e => (e.1, f e.2))) (asTable value) where
  back t := by
    have entries : (t.entries.map fun e => (e.1, f e.2)).mapM
        (fun m => (value m.2).map (m.1, ·)) = .ok t.entries := by
      rw [mapM_eq_ok_iff, List.forall₂_map_left_iff, List.forall₂_same]
      intro e _
      rw [h.back]
      rfl
    simp only [Json.asTable, entries, bind, Except.bind, Table.ofList_entries]
    rfl
  plain t := .object (List.forall_mem_map.mpr fun e _ => h.plain e.2)
  notNull := nofun

/-! ## Records -/

namespace Checked

theorem map_eq_ok {x : Checked α} {a : α} (g : α → β) (h : x = .ok a) : g <$> x = .ok (g a) := by
  rw [h, map_ok]

theorem seq_eq_ok {g : Checked (α → β)} {x : Checked α} {g' : α → β} {a : α} (h : g = .ok g')
    (h' : x = .ok a) : g <*> x = .ok (g' a) := by
  rw [h, h', ok_seq_ok]

end Checked

section Records

variable {names : List String} {body : Record → Checked β} {b : β} {name : String}

/-- A record whose fields are always written. -/
theorem record_object {members : List (String × Json)} (distinct : names.Nodup)
    (same : members.map (·.1) = names)
    (h : (members.map (·.1)).Nodup → body ⟨members⟩ = .ok b) :
    record names body (.object members) = .ok b := by
  subst same
  exact record_eq_ok (fun m hm unknown => absurd (List.mem_map_of_mem hm) unknown) (h distinct)

/-- An array stands for the record with its items as the fields. -/
theorem record_array {members : List (String × Json)} (same : members.map (·.1) = names) :
    record names body (.array (members.map (·.2))) = record names body (.object members) := by
  have zipped := List.zip_of_prod same rfl
  subst same
  simp only [record, asRecord, ← zipped, List.length_map, lt_irrefl, if_false, List.append_nil]

/-- A record some of whose fields may be left out. -/
theorem record_present {ms : List (String × Option Json)} (distinct : names.Nodup)
    (same : ms.map (·.1) = names)
    (h : (ms.map (·.1)).Nodup → body ⟨present ms⟩ = .ok b) :
    record names body (.object (present ms)) = .ok b := by
  subst same
  refine record_eq_ok (fun m hm unknown => absurd ?_ unknown) (h distinct)
  exact List.mem_map_of_mem (f := Prod.fst) (mem_present.mp hm)

theorem plain_present {ms : List (String × Option Json)}
    (h : ∀ m ∈ ms, ∀ v, m.2 = some v → v.Plain) : (Json.object (present ms)).Plain :=
  .object fun m hm => h _ (mem_present.mp hm) m.2 rfl

namespace Lawful

variable {members : List (String × Json)} {ms : List (String × Option Json)} {a : α}

theorem required (h : Lawful f value) (names : (members.map (·.1)).Nodup)
    (there : (name, f a) ∈ members) : Record.required ⟨members⟩ name value = .ok a :=
  Record.member_eq_ok names there (h.back a)

theorem required_present (h : Lawful f value) (names : (ms.map (·.1)).Nodup)
    (there : (name, some (f a)) ∈ ms) : Record.required ⟨present ms⟩ name value = .ok a :=
  Json.required_present names there (h.back a)

theorem withDefault_present (h : Lawful f value) (names : (ms.map (·.1)).Nodup) {b : α}
    (there : (name, some (f a)) ∈ ms) : Record.withDefault ⟨present ms⟩ name b value = .ok a :=
  Json.withDefault_present names there (h.back a)

theorem optional_present (h : Lawful f value) (names : (ms.map (·.1)).Nodup) {o : Option α}
    (there : (name, o.map f) ∈ ms) : Record.optional ⟨present ms⟩ name value = .ok o :=
  Json.optional_present names there h.back h.notNull

/-- An empty list is left out, and what is left out is read as the empty list. -/
theorem unlessEmpty_present (h : Lawful f value) (names : (ms.map (·.1)).Nodup) {l : List α}
    (there : (name, unlessEmpty (l.map f)) ∈ ms) :
    Record.withDefault ⟨present ms⟩ name [] (Json.asList value) = .ok l := by
  cases l with
  | nil =>
    refine Record.member_eq_absent fun m hm same => ?_
    have absent := List.inj_on_of_nodup_map names (mem_present.mp hm) there same
    exact absurd (congrArg Prod.snd absent) nofun
  | cons a l => exact h.asList.withDefault_present names there

theorem plain_unlessEmpty (h : Lawful f value) (l : List α) :
    ∀ v, unlessEmpty (l.map f) = some v → v.Plain := by
  cases l with
  | nil => nofun
  | cons a l =>
    rintro v ⟨⟩
    exact h.asList.plain (a :: l)

end Lawful

end Records

end MeshControl.Json
