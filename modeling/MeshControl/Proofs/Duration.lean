import Mathlib
import MeshControl.Duration

/-!
# The grammar of durations

A written duration is a number with an ending, perhaps with a plus sign before it and white space
around. The endings `ms`, `s` and `m` are parts of each other, but what stands before an ending is a
digit, so that no text has two endings.

## Main definitions

* `Duration.Ending` — what may stand behind the number, with the durations that it counts.
* `Duration.Writes` — a text holds digits with an ending.
* `Duration.parse?_eq_some_iff` — the texts that write a duration, and which.
* `Duration.parse?_exact` — with that, nothing is read in two ways, and numbers are read back.
-/

namespace MeshControl

/-! ## White space -/

namespace Text

theorem exists_eq_trim (s : List Char) : ∃ before after : List Char,
    (∀ c ∈ before, isBlank c) ∧ (∀ c ∈ after, isBlank c) ∧ s = before ++ trim s ++ after := by
  refine ⟨s.takeWhile isBlank, (s.dropWhile isBlank).rtakeWhile isBlank,
    fun c hc => List.mem_takeWhile_imp hc, fun c hc => List.mem_rtakeWhile_imp hc, ?_⟩
  have rest : trim s = (s.dropWhile isBlank).rdropWhile isBlank := rfl
  rw [rest, List.append_assoc, List.rdropWhile_append_rtakeWhile,
    List.takeWhile_append_dropWhile]

theorem trim_eq_of_append {before core after : List Char} (hb : ∀ c ∈ before, isBlank c)
    (ha : ∀ c ∈ after, isBlank c) (hc : ∀ c ∈ core, isBlank c = false) (ne : core ≠ []) :
    trim (before ++ core ++ after) = core := by
  obtain ⟨c, core', rfl⟩ := List.exists_cons_of_ne_nil ne
  have start : (before ++ (c :: core') ++ after).dropWhile isBlank = c :: core' ++ after := by
    rw [List.append_assoc, List.dropWhile_append_of_pos hb, List.cons_append,
      List.dropWhile_cons_of_neg (by simp [hc c List.mem_cons_self])]
  have back : ∀ c ∈ after.reverse, isBlank c := fun c h => ha c (List.mem_reverse.mp h)
  have kept : (c :: core').reverse.dropWhile isBlank = (c :: core').reverse := by
    rw [List.dropWhile_eq_self_iff]
    intro pos
    simpa using hc _ (List.mem_reverse.mp (List.getElem_mem pos))
  rw [trim, start, List.reverse_append, List.dropWhile_append_of_pos back, kept,
    List.reverse_reverse]

theorem isBlank_of_isDigit {c : Char} (h : c.isDigit) : isBlank c = false := by
  have bounds : 48 ≤ c.toNat ∧ c.toNat ≤ 57 := by
    simpa [Char.isDigit, UInt32.le_iff_toNat_le] using h
  simp only [isBlank]
  grind

theorem dropSuffix?_eq_some_iff {p s r : List Char} : dropSuffix? p s = some r ↔ s = r ++ p := by
  simp only [dropSuffix?, Option.ite_none_right_eq_some, List.isSuffixOf_iff_suffix,
    Option.some.injEq]
  constructor
  · rintro ⟨⟨t, rfl⟩, rfl⟩
    simp
  · rintro rfl
    simp

theorem dropSuffix?_nil (s : List Char) : dropSuffix? [] s = some s :=
  dropSuffix?_eq_some_iff.mpr (List.append_nil s).symm

theorem dropSuffix?_concat (p s : List Char) (a b : Char) :
    dropSuffix? (p ++ [a]) (s ++ [b]) = if a = b then dropSuffix? p s else none := by
  ext r
  rw [Option.ite_none_right_eq_some, dropSuffix?_eq_some_iff, dropSuffix?_eq_some_iff,
    ← List.append_assoc]
  constructor
  · intro same
    obtain ⟨same, last⟩ := List.append_inj' same rfl
    exact ⟨(List.singleton_inj.mp last).symm, same⟩
  · rintro ⟨rfl, rfl⟩
    rfl

theorem natOfDigits_eq_ofDigitChars (digits : List Char) :
    natOfDigits digits = Nat.ofDigitChars 10 digits 0 := by
  rw [natOfDigits, Nat.ofDigitChars_eq_foldl]
  rfl

end Text

namespace Duration

/-! ## Written durations -/

/-- What may stand behind a number. -/
inductive Ending where
  | milliseconds
  | seconds
  | minutes
  | bare
  deriving DecidableEq

namespace Ending

def text : Ending → String
  | milliseconds => "ms"
  | seconds => "s"
  | minutes => "m"
  | bare => ""

/-- The duration that a number with the ending counts. -/
def duration : Ending → Nat → Duration
  | milliseconds, n => ⟨n⟩
  | seconds, n | bare, n => ofSeconds n
  | minutes, n => ofSeconds (60 * n)

/-- The number has 64 bits, and if it counts minutes, so has the number of seconds. -/
def InBounds (e : Ending) (n : Nat) : Prop := n < 2 ^ 64 ∧ (e = minutes → 60 * n < 2 ^ 64)

instance (e : Ending) (n : Nat) : Decidable (e.InBounds n) :=
  inferInstanceAs (Decidable (_ ∧ _))

/-- The unit that the ending is read as. -/
def unit : Ending → Unit
  | milliseconds => .milliseconds
  | seconds | bare => .seconds
  | minutes => .minutes

theorem text_injective {e f : Ending} (h : e.text = f.text) : e = f := by
  revert h
  cases e <;> cases f <;> decide

theorem duration_eq (e : Ending) (n : Nat) : e.duration n = ⟨n * e.unit.length⟩ := by
  cases e <;> simp only [duration, ofSeconds, unit, Unit.length, Duration.mk.injEq] <;> ring

theorem seconds_duration_lt {e : Ending} {n : Nat} (h : e.InBounds n) :
    (e.duration n).seconds < 2 ^ 64 := by
  obtain ⟨small, minutes⟩ := h
  cases e <;> simp only [duration, ofSeconds, Duration.seconds] <;> grind

end Ending

/-- Between white space, a text holds digits with an ending, and perhaps a plus sign before
them. -/
structure Writes (text : String) (digits : List Char) (e : Ending) : Prop where
  digits_ne : digits ≠ []
  isDigit : ∀ c ∈ digits, c.isDigit
  layout : ∃ before sign after : List Char, (∀ c ∈ before, Text.isBlank c) ∧
    (sign = [] ∨ sign = ['+']) ∧ (∀ c ∈ after, Text.isBlank c) ∧
    text.toList = before ++ (sign ++ digits ++ e.text.toList) ++ after

/-! ## Reading the parts -/

theorem ofCount?_eq (n : Nat) (e : Ending) :
    ofCount? n e.unit = if e.InBounds n then some (e.duration n) else none := by
  have size : bound = 2 ^ 64 := rfl
  simp only [ofCount?, Bool.and_eq_true, Bool.or_eq_true, decide_eq_true_eq, Ending.duration_eq,
    Ending.InBounds, size]
  cases e <;> simp [Ending.unit]

theorem count?_eq_some_iff {s : List Char} {n : Nat} : count? s = some n ↔
    ∃ sign digits : List Char, (sign = [] ∨ sign = ['+']) ∧ s = sign ++ digits ∧ digits ≠ [] ∧
      (∀ c ∈ digits, c.isDigit) ∧ Nat.ofDigitChars 10 digits 0 = n := by
  constructor
  · intro h
    unfold count? at h
    split at h
    · obtain ⟨ne, digit, value⟩ := Text.decimal?_eq_some_iff.mp h
      exact ⟨['+'], _, .inr rfl, rfl, ne, digit, Text.natOfDigits_eq_ofDigitChars _ ▸ value⟩
    · obtain ⟨ne, digit, value⟩ := Text.decimal?_eq_some_iff.mp h
      exact ⟨[], s, .inl rfl, rfl, ne, digit, Text.natOfDigits_eq_ofDigitChars _ ▸ value⟩
  · rintro ⟨sign, digits, signed, rfl, ne, digit, value⟩
    rw [← Text.natOfDigits_eq_ofDigitChars] at value
    have number := Text.decimal?_eq_some_iff.mpr ⟨ne, digit, value⟩
    obtain rfl | rfl := signed
    · rw [List.nil_append]
      unfold count?
      split
      · -- A digit is no plus sign.
        exact absurd (digit '+' List.mem_cons_self) (by decide)
      · exact number
    · exact number

theorem eq_append_of_splitUnit {s n : List Char} {u : Unit} (h : splitUnit s = (n, u)) :
    ∃ e : Ending, e.unit = u ∧ s = n ++ e.text.toList := by
  unfold splitUnit at h
  split at h
  · rename_i r found
    obtain ⟨rfl, rfl⟩ := Prod.mk.inj h
    exact ⟨.milliseconds, rfl, Text.dropSuffix?_eq_some_iff.mp found⟩
  · split at h
    · rename_i r found
      obtain ⟨rfl, rfl⟩ := Prod.mk.inj h
      exact ⟨.seconds, rfl, Text.dropSuffix?_eq_some_iff.mp found⟩
    · split at h
      · rename_i r found
        obtain ⟨rfl, rfl⟩ := Prod.mk.inj h
        exact ⟨.minutes, rfl, Text.dropSuffix?_eq_some_iff.mp found⟩
      · obtain ⟨rfl, rfl⟩ := Prod.mk.inj h
        exact ⟨.bare, rfl, by simp [Ending.text]⟩

/-- An ending is taken off a number, which ends in a digit and so in no letter of an ending. -/
theorem splitUnit_append (front : List Char) {c : Char} (digit : c.isDigit) (e : Ending) :
    splitUnit (front ++ [c] ++ e.text.toList) = (front ++ [c], e.unit) := by
  have letters : 's' ≠ c ∧ 'm' ≠ c :=
    ⟨fun same => absurd (same ▸ digit) (by decide), fun same => absurd (same ▸ digit) (by decide)⟩
  have ms : ∀ s b, Text.dropSuffix? ['m', 's'] (s ++ [b]) =
      if 's' = b then Text.dropSuffix? ['m'] s else none :=
    fun s b => Text.dropSuffix?_concat ['m'] s 's' b
  have last : ∀ a s b, Text.dropSuffix? [a] (s ++ [b]) = if a = b then some s else none := by
    intro a s b
    rw [← Text.dropSuffix?_nil s]
    exact Text.dropSuffix?_concat [] s a b
  cases e with
  | milliseconds =>
    have taken : Text.dropSuffix? ['m', 's'] (front ++ [c] ++ ['m', 's']) = some (front ++ [c]) :=
      Text.dropSuffix?_eq_some_iff.mpr rfl
    simp only [splitUnit, Ending.text, Ending.unit, String.reduceToList, taken]
  | seconds =>
    simp only [splitUnit, Ending.text, Ending.unit, String.reduceToList, ms, last, letters, if_true,
      if_false]
  | minutes =>
    have differ : 's' ≠ 'm' := by decide
    simp only [splitUnit, Ending.text, Ending.unit, String.reduceToList, ms, last, differ, if_true,
      if_false]
  | bare =>
    simp only [splitUnit, Ending.text, Ending.unit, String.reduceToList, List.append_nil, ms, last,
      letters, if_false]

/-! ## Reading a text -/

variable {text : String} {digits : List Char} {e : Ending}

theorem isBlank_text (e : Ending) : ∀ c ∈ e.text.toList, Text.isBlank c = false := by
  cases e <;> simp [Ending.text, Text.isBlank]

/-- What reading finds in a written duration. -/
theorem Writes.trim_eq (h : Writes text digits e) :
    ∃ sign : List Char, (sign = [] ∨ sign = ['+']) ∧
      Text.trim text.toList = sign ++ digits ++ e.text.toList := by
  obtain ⟨before, sign, after, hb, signed, ha, layout⟩ := h.layout
  have solid : ∀ c ∈ sign ++ digits ++ e.text.toList, Text.isBlank c = false := by
    intro c hc
    simp only [List.mem_append, or_assoc] at hc
    obtain hc | hc | hc := hc
    · obtain rfl | rfl := signed
      · cases hc
      · rw [List.mem_singleton.mp hc]
        decide
    · exact Text.isBlank_of_isDigit (h.isDigit c hc)
    · exact isBlank_text e c hc
  exact ⟨sign, signed, layout ▸ Text.trim_eq_of_append hb ha solid (by simp [h.digits_ne])⟩

theorem Writes.splitUnit_eq (h : Writes text digits e) (sign : List Char) :
    splitUnit (sign ++ digits ++ e.text.toList) = (sign ++ digits, e.unit) := by
  obtain ⟨front, c, rfl⟩ := (List.eq_nil_or_concat' digits).resolve_left h.digits_ne
  have digit : c.isDigit := h.isDigit c (by simp)
  simpa only [List.append_assoc] using splitUnit_append (sign ++ front) digit e

theorem Writes.parse?_eq (h : Writes text digits e) :
    parse? text = if e.InBounds (Nat.ofDigitChars 10 digits 0) then
      some (e.duration (Nat.ofDigitChars 10 digits 0)) else none := by
  obtain ⟨sign, signed, core⟩ := h.trim_eq
  have number : count? (sign ++ digits) = some (Nat.ofDigitChars 10 digits 0) :=
    count?_eq_some_iff.mpr ⟨sign, digits, signed, rfl, h.digits_ne, h.isDigit, rfl⟩
  simp only [parse?, core, h.splitUnit_eq, number, Option.bind_some, ofCount?_eq]

/-- Nothing is read but written durations. -/
theorem exists_writes {d : Duration} (h : parse? text = some d) :
    ∃ digits e, Writes text digits e := by
  obtain ⟨before, after, hb, ha, whole⟩ := Text.exists_eq_trim text.toList
  obtain ⟨number, unit, parts⟩ : ∃ number unit,
      splitUnit (Text.trim text.toList) = (number, unit) := ⟨_, _, rfl⟩
  simp only [parse?, parts] at h
  obtain ⟨n, counted, -⟩ := Option.bind_eq_some_iff.mp h
  obtain ⟨sign, digits, signed, rfl, ne, digit, -⟩ := count?_eq_some_iff.mp counted
  obtain ⟨e, -, core⟩ := eq_append_of_splitUnit parts
  exact ⟨digits, e, ne, digit, before, sign, after, hb, signed, ha, core ▸ whole⟩

theorem parse?_eq_some_iff {d : Duration} : parse? text = some d ↔ ∃ digits e,
    Writes text digits e ∧ e.InBounds (Nat.ofDigitChars 10 digits 0) ∧
      e.duration (Nat.ofDigitChars 10 digits 0) = d := by
  constructor
  · intro h
    obtain ⟨digits, e, writes⟩ := exists_writes h
    rw [writes.parse?_eq, Option.ite_none_right_eq_some, Option.some.injEq] at h
    exact ⟨digits, e, writes, h⟩
  · rintro ⟨digits, e, writes, fits⟩
    rwa [writes.parse?_eq, Option.ite_none_right_eq_some, Option.some.injEq]

/-- A text holds one number with one ending. -/
theorem Writes.unique (h : Writes text digits e) {digits' : List Char} {e' : Ending}
    (h' : Writes text digits' e') : digits = digits' ∧ e = e' := by
  obtain ⟨sign, signed, core⟩ := h.trim_eq
  obtain ⟨sign', signed', core'⟩ := h'.trim_eq
  have whole : sign ++ digits ++ e.text.toList = sign' ++ digits' ++ e'.text.toList :=
    core.symm.trans core'
  have number : sign ++ digits = sign' ++ digits' := by
    have split := h.splitUnit_eq sign
    rw [whole, h'.splitUnit_eq sign'] at split
    exact (Prod.mk.inj split).1.symm
  rw [number] at whole
  refine ⟨?_, Ending.text_injective (String.toList_inj.mp (List.append_cancel_left whole))⟩
  -- A plus sign on one side alone would be a digit of the other.
  have plus : ∀ {l m : List Char}, (∀ c ∈ m, c.isDigit) → ['+'] ++ l ≠ [] ++ m := by
    rintro l m digit rfl
    exact absurd (digit '+' List.mem_cons_self) (by decide)
  obtain rfl | rfl := signed <;> obtain rfl | rfl := signed'
  · exact number
  · exact absurd number.symm (plus h.isDigit)
  · exact absurd number (plus h'.isDigit)
  · exact List.append_cancel_left number

theorem writes_toString (n : Nat) (e : Ending) :
    Writes (toString n ++ e.text) (Nat.toDigits 10 n) e where
  digits_ne := Nat.toDigits_ne_nil
  isDigit _ hc := Nat.isDigit_of_mem_toDigits (by decide) le_rfl hc
  layout := ⟨[], [], [], nofun, .inl rfl, nofun, by simp⟩

/-- A text is read as a duration exactly if, between white space, it holds one or more digits with
an ending and perhaps a plus sign, and the number is in bounds. The duration is what the number
counts. Its seconds have 64 bits, no text has two readings, and a number with an ending is read
back. -/
theorem parse?_exact :
    (∀ text d, parse? text = some d ↔ ∃ digits e, Writes text digits e ∧
      e.InBounds (Nat.ofDigitChars 10 digits 0) ∧
      e.duration (Nat.ofDigitChars 10 digits 0) = d) ∧
    (∀ text d, parse? text = some d → d.seconds < 2 ^ 64) ∧
    (∀ text digits e digits' e', Writes text digits e → Writes text digits' e' →
      digits = digits' ∧ e = e') ∧
    ∀ (n : Nat) (e : Ending), parse? (toString n ++ e.text) =
      if e.InBounds n then some (e.duration n) else none := by
  refine ⟨fun _ _ => parse?_eq_some_iff, fun text d h => ?_, fun _ _ _ _ _ h h' => h.unique h',
    fun n e => ?_⟩
  · obtain ⟨digits, e, -, fits, rfl⟩ := parse?_eq_some_iff.mp h
    exact Ending.seconds_duration_lt fits
  · rw [(writes_toString n e).parse?_eq, Nat.ofDigitChars_ten_toDigits]

/-- Minutes are bounded as seconds, and no space stands before a unit. -/
example : parse? " +307445734561825860m\n" = some (ofSeconds 18446744073709551600) ∧
    parse? "307445734561825861m" = none ∧ parse? "5 s" = none := by
  decide

end Duration

end MeshControl
