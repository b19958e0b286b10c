import Mathlib
import MeshControl.Json.Reader
import MeshControl.Proofs.Json.Numbers

/-!
# Reading what was written

A value without broken parts, whose numbers are whole and of 64 bits, is read back from its text.
The reader takes the text of a part in any place where a value may stand, whatever is still open
around it, so the law for a value is made of those for its parts.

## Main definitions

* `Json.Plain` — values without broken parts, with whole numbers.
* `Json.WrittenAs` — bytes that are read as a value wherever one may stand.
* `Json.Plain.read_text` — the text of such a value is read back as the value.
-/

namespace MeshControl.Json

open Token

/-- Values without broken parts, with whole numbers. -/
inductive Plain : Json → Prop
  | null : Plain .null
  | bool (b : Bool) : Plain (.bool b)
  | nat {n : Nat} (h : n < UInt64.size) : Plain (.ofNat n)
  | string (s : String) : Plain (.string s)
  | array {items : List Json} (h : ∀ v ∈ items, Plain v) : Plain (.array items)
  | object {members : List (String × Json)} (h : ∀ m ∈ members, Plain m.2) : Plain (.object members)

/-! ## Elements in a row -/

theorem Token.scanOnto_cons (acc : List Token) {b : UInt8} {bytes rest : List UInt8} {t : Token}
    (space : isSpace b = false) (reads : first b bytes = some (t, rest)) :
    scanOnto acc (b :: bytes) = scanOnto (t :: acc) rest := by
  rw [scanOnto, if_neg (Bool.eq_false_iff.mp space)]
  split
  · rename_i t' rest' reads'
    obtain ⟨rfl, rfl⟩ := Prod.mk.inj (Option.some.inj (reads.symm.trans reads'))
    rfl
  · rename_i none
    rw [none] at reads
    cases reads

theorem Token.scanOnto_cons_of_first_eq_none (acc : List Token) {b : UInt8} {bytes : List UInt8}
    (space : isSpace b = false) (stops : first b bytes = none) :
    scanOnto acc (b :: bytes) = .stray :: acc := by
  rw [scanOnto, if_neg (Bool.eq_false_iff.mp space)]
  split
  · rename_i reads
    rw [stops] at reads
    cases reads
  · rfl

theorem Token.scanOnto_append (acc acc' : List Token) (l : List UInt8) :
    scanOnto (acc ++ acc') l = scanOnto acc l ++ acc' := by
  fun_induction scanOnto acc l with
  | case1 acc => rw [scanOnto]
  | case2 acc b rest space ih => rw [scanOnto, if_pos space, ih]
  | case3 acc b rest space t left reads _ ih =>
    rw [scanOnto_cons _ (Bool.eq_false_iff.mpr space) reads]
    exact ih
  | case4 acc b rest space stops =>
    rw [scanOnto_cons_of_first_eq_none _ (Bool.eq_false_iff.mpr space) stops]
    rfl

/-- The first element stands in front of the others. -/
theorem Token.scan_cons {b : UInt8} {bytes rest : List UInt8} {t : Token}
    (space : isSpace b = false) (reads : first b bytes = some (t, rest)) :
    scan (b :: bytes) = t :: scan rest := by
  rw [scan, scanOnto_cons [] space reads, ← List.nil_append [t], scanOnto_append,
    List.reverse_append]
  rfl

theorem Token.scan_nil : scan [] = [] := by
  rw [scan, scanOnto]
  rfl

theorem build_cons {frames frames' : List Frame} {place place' : Place} {t : Token}
    (fits : step frames place t = some (frames', place')) (rest : List Token) :
    build frames place (t :: rest) = build frames' place' rest := by
  rw [build, fits]
  -- after a whole value nothing fits
  rintro v rfl rfl
  simp [step] at fits

/-! ## Values -/

/-- Bytes that are read as a value wherever one may stand. -/
def WrittenAs (bytes : List UInt8) (v : Json) : Prop :=
  ∀ frames place rest, place = .value ∨ place = .firstItem → Ends rest →
    build frames place (scan (bytes ++ rest)) = build frames (.after v) (scan rest)

/-- A value that is a single element. -/
theorem writtenAs_of_first {b : UInt8} {bytes : List UInt8} {t : Token} {v : Json}
    (space : isSpace b = false)
    (reads : ∀ rest, Ends rest → first b (bytes ++ rest) = some (t, rest))
    (scalar : t.scalar? = some v) : WrittenAs (b :: bytes) v := by
  intro frames place rest expected ends
  have fits : step frames place t = some (frames, .after v) := by
    rcases expected with rfl | rfl <;> cases t <;> simp_all [step, scalar?]
  rw [List.cons_append, scan_cons space (reads rest ends), build_cons fits]

theorem writtenAs_string (s : String) : WrittenAs (Utf8.encode (stringText s)) (.string s) := by
  obtain ⟨bytes, written, reads⟩ := first_stringText s
  rw [written]
  exact writtenAs_of_first rfl (fun rest _ => reads rest) rfl

theorem writtenAs_nat {n : Nat} (h : n < UInt64.size) :
    WrittenAs (Utf8.encode (Json.ofNat n).text) (.ofNat n) := by
  obtain ⟨b, bytes, written, space, reads⟩ := first_digitBytes h
  have text : (Json.ofNat n).text = toString n := by
    simp [Json.ofNat, Json.text, Number.text]
  rw [text, encode_toString, written]
  exact writtenAs_of_first space reads rfl

/-! ### Arrays -/

theorem encode_array (items : List Json) : Utf8.encode (array items).text =
    0x5B :: (Utf8.encode (text.itemsText items) ++ [0x5D]) := by
  have opened : Utf8.encode "[" = [0x5B] := by decide
  have closed : Utf8.encode "]" = [0x5D] := by decide
  rw [text, Utf8.encode_append, Utf8.encode_append, opened, closed]
  rfl

theorem encode_itemsText_cons (v : Json) {items : List Json} (more : items ≠ []) :
    Utf8.encode (text.itemsText (v :: items)) =
      Utf8.encode v.text ++ 0x2C :: Utf8.encode (text.itemsText items) := by
  have comma : Utf8.encode "," = [0x2C] := by decide
  rw [text.itemsText, Utf8.encode_append, Utf8.encode_append, comma, List.append_assoc]
  · rfl
  · exact more

theorem build_items {items : List Json} (nonempty : items ≠ [])
    (h : ∀ v ∈ items, WrittenAs (Utf8.encode v.text) v) (frames : List Frame)
    (before : List Json) {place : Place} (expected : place = .value ∨ place = .firstItem)
    (rest : List UInt8) :
    build (.items before :: frames) place
        (scan (Utf8.encode (text.itemsText items) ++ 0x5D :: rest)) =
      build frames (.after (.array (before.reverse ++ items))) (scan rest) := by
  induction items generalizing before place with
  | nil => exact absurd rfl nonempty
  | cons v items ih =>
    obtain ⟨first, others⟩ := List.forall_mem_cons.mp h
    by_cases last : items = []
    · subst last
      rw [text.itemsText, first _ _ _ expected (by simp [Ends]), scan_cons rfl rfl, build_cons rfl,
        List.reverse_cons]
    · rw [encode_itemsText_cons v last, List.append_assoc, List.cons_append,
        first _ _ _ expected (by simp [Ends]), scan_cons rfl rfl, build_cons rfl,
        ih last others (v :: before) (.inl rfl), List.reverse_cons, List.append_assoc]
      rfl

theorem writtenAs_array {items : List Json} (h : ∀ v ∈ items, WrittenAs (Utf8.encode v.text) v) :
    WrittenAs (Utf8.encode (Json.array items).text) (.array items) := by
  intro frames place rest expected ends
  have opens : step frames place .openArray = some (.items [] :: frames, .firstItem) := by
    rcases expected with rfl | rfl <;> rfl
  rw [encode_array, List.cons_append, List.append_assoc, List.singleton_append, scan_cons rfl rfl,
    build_cons opens]
  by_cases nothing : items = []
  · have text : Utf8.encode (text.itemsText []) = [] := by decide
    rw [nothing, text, List.nil_append, scan_cons rfl rfl, build_cons rfl]
  · exact build_items nothing h frames [] (.inr rfl) rest

/-! ### Objects -/

theorem encode_object (members : List (String × Json)) : Utf8.encode (object members).text =
    0x7B :: (Utf8.encode (text.membersText members) ++ [0x7D]) := by
  have opened : Utf8.encode "\x7b" = [0x7B] := by decide
  have closed : Utf8.encode "\x7d" = [0x7D] := by decide
  rw [text, Utf8.encode_append, Utf8.encode_append, opened, closed]
  rfl

theorem encode_membersText_singleton (m : String × Json) :
    Utf8.encode (text.membersText [m]) =
      Utf8.encode (stringText m.1) ++ 0x3A :: Utf8.encode m.2.text := by
  have colon : Utf8.encode ":" = [0x3A] := by decide
  rw [text.membersText, Utf8.encode_append, Utf8.encode_append, colon, List.append_assoc]
  rfl

theorem encode_membersText_cons (m : String × Json) {members : List (String × Json)}
    (more : members ≠ []) : Utf8.encode (text.membersText (m :: members)) =
      Utf8.encode (stringText m.1) ++ 0x3A :: (Utf8.encode m.2.text ++
        0x2C :: Utf8.encode (text.membersText members)) := by
  have colon : Utf8.encode ":" = [0x3A] := by decide
  have comma : Utf8.encode "," = [0x2C] := by decide
  rw [text.membersText, Utf8.encode_append, Utf8.encode_append, Utf8.encode_append,
    Utf8.encode_append, colon, comma]
  · simp
  · exact more

/-- A name and the colon after it. -/
theorem scan_name (name : String) (rest : List UInt8) :
    scan (Utf8.encode (stringText name) ++ 0x3A :: rest) = .string name :: .colon :: scan rest := by
  obtain ⟨bytes, written, reads⟩ := first_stringText name
  rw [written, List.cons_append, scan_cons rfl (reads _), scan_cons rfl rfl]

theorem build_members {members : List (String × Json)} (nonempty : members ≠ [])
    (h : ∀ m ∈ members, WrittenAs (Utf8.encode m.2.text) m.2) (frames : List Frame)
    (before : List (String × Json)) {place : Place}
    (expected : place = .name before ∨ place = .firstName ∧ before = []) (rest : List UInt8) :
    build frames place (scan (Utf8.encode (text.membersText members) ++ 0x7D :: rest)) =
      build frames (.after (.object (before.reverse ++ members))) (scan rest) := by
  induction members generalizing before place with
  | nil => exact absurd rfl nonempty
  | cons m members ih =>
    obtain ⟨first, others⟩ := List.forall_mem_cons.mp h
    have named : step frames place (.string m.1) = some (frames, .colon before m.1) := by
      rcases expected with rfl | ⟨rfl, rfl⟩ <;> rfl
    by_cases last : members = []
    · subst last
      rw [encode_membersText_singleton, List.append_assoc, List.cons_append, scan_name,
        build_cons named, build_cons rfl, first _ _ _ (.inl rfl) (by simp [Ends]),
        scan_cons rfl rfl, build_cons rfl, List.reverse_cons]
    · rw [encode_membersText_cons m last, List.append_assoc, List.cons_append, scan_name,
        build_cons named, build_cons rfl, List.append_assoc, List.cons_append,
        first _ _ _ (.inl rfl) (by simp [Ends]), scan_cons rfl rfl, build_cons rfl,
        ih last others (m :: before) (.inl rfl), List.reverse_cons, List.append_assoc]
      rfl

theorem writtenAs_object {members : List (String × Json)}
    (h : ∀ m ∈ members, WrittenAs (Utf8.encode m.2.text) m.2) :
    WrittenAs (Utf8.encode (Json.object members).text) (.object members) := by
  intro frames place rest expected ends
  have opens : step frames place .openObject = some (frames, .firstName) := by
    rcases expected with rfl | rfl <;> rfl
  rw [encode_object, List.cons_append, List.append_assoc, List.singleton_append, scan_cons rfl rfl,
    build_cons opens]
  by_cases nothing : members = []
  · have text : Utf8.encode (text.membersText []) = [] := by decide
    rw [nothing, text, List.nil_append, scan_cons rfl rfl, build_cons rfl]
  · exact build_members nothing h frames [] (.inr ⟨rfl, rfl⟩) rest

/-! ### All values -/

theorem writtenAs_null : WrittenAs (Utf8.encode Json.null.text) .null := by
  have bytes : Utf8.encode Json.null.text = [0x6E, 0x75, 0x6C, 0x6C] := by decide
  rw [bytes]
  exact writtenAs_of_first rfl (fun rest _ => rfl) rfl

theorem writtenAs_bool (b : Bool) : WrittenAs (Utf8.encode (Json.bool b).text) (.bool b) := by
  cases b with
  | true =>
    have bytes : Utf8.encode (Json.bool true).text = [0x74, 0x72, 0x75, 0x65] := by decide
    rw [bytes]
    exact writtenAs_of_first rfl (fun rest _ => rfl) rfl
  | false =>
    have bytes : Utf8.encode (Json.bool false).text = [0x66, 0x61, 0x6C, 0x73, 0x65] := by decide
    rw [bytes]
    exact writtenAs_of_first rfl (fun rest _ => rfl) rfl

/-- The text of a value stands for it in any place. -/
theorem Plain.writtenAs_text {v : Json} (h : Plain v) : WrittenAs (Utf8.encode v.text) v := by
  induction h with
  | null => exact writtenAs_null
  | bool b => exact writtenAs_bool b
  | nat h => exact writtenAs_nat h
  | string s => exact writtenAs_string s
  | array _ ih => exact writtenAs_array ih
  | object _ ih => exact writtenAs_object ih

/-- The text of a value is read back as the value. -/
theorem Plain.read_text {v : Json} (h : Plain v) : read (Utf8.encode v.text) = ⟨v, false⟩ := by
  have whole := h.writtenAs_text [] .value [] (.inl rfl) trivial
  rw [List.append_nil] at whole
  rw [read, whole, scan_nil]
  rfl

end MeshControl.Json
