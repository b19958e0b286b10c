import Mathlib
import MeshControl.Json.Printer
import MeshControl.Json.Token

/-!
# String literals

A text is written between quotes, with an escape for every character that cannot stand for itself.
Character by character the literal is read back as the pieces that make the bytes of the text.

## Main statements

* `Utf8.encode_ofList` — the bytes of a text are those of its characters.
* `Json.Token.pieces_escape` — what one written character is read as.
* `Json.Token.first_stringText` — a string literal is read as its text.
-/

namespace MeshControl

/-! ## Characters as bytes -/

namespace Utf8

theorem encode_append (s t : String) : encode (s ++ t) = encode s ++ encode t := by
  simp [encode]

/-- The bytes of a text are those of its characters. -/
theorem encode_ofList (cs : List Char) :
    encode (String.ofList cs) = cs.flatMap String.utf8EncodeChar := by
  rw [encode, String.toUTF8_eq_toByteArray, String.toByteArray_ofList]
  simp [List.utf8Encode]

theorem encode_eq_flatMap (s : String) : encode s = s.toList.flatMap String.utf8EncodeChar := by
  rw [← encode_ofList, String.ofList_toList]

/-- A character of ASCII is one byte. -/
theorem utf8EncodeChar_of_lt {c : Char} (h : c.toNat < 128) :
    String.utf8EncodeChar c = [UInt8.ofNat c.toNat] := by
  have small : c.val.toNat ≤ 127 := Nat.le_of_lt_succ h
  exact if_pos small

/-- The bytes of any other character are not of ASCII. -/
theorem le_of_mem_utf8EncodeChar {c : Char} (h : 128 ≤ c.toNat) {b : UInt8}
    (hb : b ∈ String.utf8EncodeChar c) : 128 ≤ b.toNat := by
  have large : ¬ c.val.toNat ≤ 127 := not_le.mpr h
  simp only [String.utf8EncodeChar, large, if_false] at hb
  have byte : ∀ n, 128 ≤ n → n < 256 → 128 ≤ (UInt8.ofNat n).toNat := by
    intro n low high
    rwa [UInt8.toNat_ofNat_of_lt' high]
  split_ifs at hb <;> simp only [List.mem_cons, List.not_mem_nil, or_false] at hb
  · rcases hb with rfl | rfl <;> exact byte _ (by omega) (by omega)
  · rcases hb with rfl | rfl | rfl <;> exact byte _ (by omega) (by omega)
  · rcases hb with rfl | rfl | rfl | rfl <;> exact byte _ (by omega) (by omega)

end Utf8

namespace Json

open Text

namespace Token

/-! ## Pieces -/

/-- A byte that stands for itself in a string literal. -/
def IsPlain (b : UInt8) : Prop := b ≠ 0x22 ∧ b ≠ 0x5C ∧ ¬ b < 0x20

theorem pieces_plain {bytes : List UInt8} (h : ∀ b ∈ bytes, IsPlain b) (acc : List Piece)
    (rest : List UInt8) :
    pieces acc (bytes ++ rest) = pieces ((bytes.map .byte).reverse ++ acc) rest := by
  induction bytes generalizing acc with
  | nil => rfl
  | cons b bytes ih =>
    obtain ⟨⟨quote, backslash, control⟩, others⟩ := List.forall_mem_cons.mp h
    rw [List.cons_append, pieces.eq_def]
    simp only [quote, backslash, control, if_false, ih others]
    simp

/-- The pieces that a character of a text is read as. -/
def piecesOf (c : Char) : List Piece :=
  if c.toNat < 32 ∧ c ∉ ['\x08', '\x09', '\x0a', '\x0c', '\x0d'] then [.unit c.toNat]
  else (String.utf8EncodeChar c).map .byte

theorem isPlain_of_mem {c : Char} (h : 32 ≤ c.toNat) (quote : c ≠ '"') (backslash : c ≠ '\\')
    {b : UInt8} (hb : b ∈ String.utf8EncodeChar c) : IsPlain b := by
  by_cases small : c.toNat < 128
  · rw [Utf8.utf8EncodeChar_of_lt small, List.mem_singleton] at hb
    subst hb
    have toNat : (UInt8.ofNat c.toNat).toNat = c.toNat :=
      UInt8.toNat_ofNat_of_lt' (small.trans (by decide))
    refine ⟨fun same => ?_, fun same => ?_, ?_⟩
    · rw [same] at toNat
      exact quote (Char.toNat_inj.mp toNat.symm)
    · rw [same] at toNat
      exact backslash (Char.toNat_inj.mp toNat.symm)
    · rw [UInt8.lt_iff_toNat_lt, toNat]
      exact not_lt.mpr h
  · have large := Utf8.le_of_mem_utf8EncodeChar (not_lt.mp small) hb
    refine ⟨?_, ?_, ?_⟩
    · rintro rfl
      revert large
      decide
    · rintro rfl
      revert large
      decide
    · rw [UInt8.lt_iff_toNat_lt]
      exact fun lt => absurd (lt_of_le_of_lt large lt) (by decide)

/-- The digit of a control character, as it is written. -/
def controlDigit (n : Nat) : Char := (Char.ofNat (hexDigit n)).toLower

theorem utf8EncodeChar_controlDigit :
    ∀ n < 16, String.utf8EncodeChar (controlDigit n) = [UInt8.ofNat (controlDigit n).toNat] := by
  decide

/-- A control character without a letter is written as its number. -/
theorem unitOf_controlDigit : ∀ n < 32, unitOf 0x30 0x30 (UInt8.ofNat (controlDigit (n / 16)).toNat)
    (UInt8.ofNat (controlDigit (n % 16)).toNat) = some n := by
  decide

theorem pieces_letter {c letter : Char} {e : UInt8} (acc : List Piece) (rest : List UInt8)
    (written : String.utf8EncodeChar letter = [e])
    (stands : (escapeOf e).map (fun b => [Piece.byte b]) = some (piecesOf c)) (noUnit : e ≠ 0x75) :
    pieces acc (['\\', letter].flatMap String.utf8EncodeChar ++ rest) =
      pieces ((piecesOf c).reverse ++ acc) rest := by
  obtain ⟨b, named, form⟩ := Option.map_eq_some_iff.mp stands
  have bytes : ['\\', letter].flatMap String.utf8EncodeChar ++ rest = 0x5C :: e :: rest := by
    rw [List.flatMap_cons, List.flatMap_singleton, written]
    rfl
  have backslash : ¬ (0x5C : UInt8) = 0x22 := by decide
  rw [bytes, pieces.eq_def, ← form]
  simp only [backslash, noUnit, if_false, if_true, named]
  rfl

theorem pieces_control {c : Char} (h : c.toNat < 32)
    (noLetter : c ∉ ['\x08', '\x09', '\x0a', '\x0c', '\x0d']) (acc : List Piece)
    (rest : List UInt8) :
    pieces acc (['\\', 'u', '0', '0', controlDigit (c.toNat / 16),
        controlDigit (c.toNat % 16)].flatMap String.utf8EncodeChar ++ rest) =
      pieces ((piecesOf c).reverse ++ acc) rest := by
  have high := utf8EncodeChar_controlDigit (c.toNat / 16) (by omega)
  have low := utf8EncodeChar_controlDigit (c.toNat % 16) (by omega)
  have bytes : ['\\', 'u', '0', '0', controlDigit (c.toNat / 16),
      controlDigit (c.toNat % 16)].flatMap String.utf8EncodeChar ++ rest =
      0x5C :: 0x75 :: 0x30 :: 0x30 :: UInt8.ofNat (controlDigit (c.toNat / 16)).toNat ::
        UInt8.ofNat (controlDigit (c.toNat % 16)).toNat :: rest := by
    simp only [List.flatMap_cons, List.flatMap_nil, high, low]
    rfl
  have backslash : ¬ (0x5C : UInt8) = 0x22 := by decide
  rw [bytes, pieces.eq_def, piecesOf, if_pos ⟨h, noLetter⟩]
  simp only [backslash, if_false, if_true, unitOf_controlDigit c.toNat h]
  rfl

/-- The pieces of a character that is escaped where it has to be. -/
theorem pieces_escape (c : Char) (acc : List Piece) (rest : List UInt8) :
    pieces acc ((escape c).flatMap String.utf8EncodeChar ++ rest) =
      pieces ((piecesOf c).reverse ++ acc) rest := by
  unfold escape
  split_ifs with quote backslash h3 h4 h5 h6 h7 control
  · subst quote
    exact pieces_letter acc rest (e := 0x22) (by decide) (by decide) (by decide)
  · subst backslash
    exact pieces_letter acc rest (e := 0x5C) (by decide) (by decide) (by decide)
  · subst h3
    exact pieces_letter acc rest (e := 0x62) (by decide) (by decide) (by decide)
  · subst h4
    exact pieces_letter acc rest (e := 0x74) (by decide) (by decide) (by decide)
  · subst h5
    exact pieces_letter acc rest (e := 0x6E) (by decide) (by decide) (by decide)
  · subst h6
    exact pieces_letter acc rest (e := 0x66) (by decide) (by decide) (by decide)
  · subst h7
    exact pieces_letter acc rest (e := 0x72) (by decide) (by decide) (by decide)
  · exact pieces_control control (by simp [*]) acc rest
  · have plain : ∀ b ∈ String.utf8EncodeChar c, IsPlain b :=
      fun b => isPlain_of_mem (not_lt.mp control) quote backslash
    rw [List.flatMap_singleton, pieces_plain plain, piecesOf, if_neg fun h => control h.1]

theorem pieces_escapes (cs : List Char) (acc : List Piece) (rest : List UInt8) :
    pieces acc ((cs.flatMap escape).flatMap String.utf8EncodeChar ++ rest) =
      pieces ((cs.flatMap piecesOf).reverse ++ acc) rest := by
  induction cs generalizing acc with
  | nil => rfl
  | cons c cs ih =>
    rw [List.flatMap_cons, List.flatMap_append, List.append_assoc, pieces_escape, ih]
    simp

theorem pieceBytes_bytes (bytes acc : List UInt8) (rest : List Piece) :
    pieceBytes acc (bytes.map .byte ++ rest) = pieceBytes (bytes.reverse ++ acc) rest := by
  induction bytes generalizing acc with
  | nil => rfl
  | cons b bytes ih =>
    rw [List.map_cons, List.cons_append, pieceBytes, ih]
    simp

/-- The pieces of a character make its bytes. -/
theorem pieceBytes_piecesOf (c : Char) (acc : List UInt8) (rest : List Piece) :
    pieceBytes acc (piecesOf c ++ rest) =
      pieceBytes ((String.utf8EncodeChar c).reverse ++ acc) rest := by
  rw [piecesOf]
  split_ifs with control
  · have high : isHighUnit c.toNat = false := by grind [isHighUnit]
    have low : isLowUnit c.toNat = false := by grind [isLowUnit]
    rw [List.singleton_append, pieceBytes.eq_def]
    simp [high, low]
  · exact pieceBytes_bytes _ acc rest

theorem pieceBytes_flatMap (cs : List Char) (acc : List UInt8) :
    pieceBytes acc (cs.flatMap piecesOf) =
      some (acc.reverse ++ cs.flatMap String.utf8EncodeChar) := by
  induction cs generalizing acc with
  | nil => simp [pieceBytes]
  | cons c cs ih =>
    rw [List.flatMap_cons, pieceBytes_piecesOf, ih]
    simp

/-- A string literal is read as the text that it was written for. -/
theorem first_stringText (s : String) : ∃ bytes, Utf8.encode (stringText s) = 0x22 :: bytes ∧
    ∀ rest, first 0x22 (bytes ++ rest) = some (.string s, rest) := by
  refine ⟨(s.toList.flatMap escape ++ ['"']).flatMap String.utf8EncodeChar, ?_, fun rest => ?_⟩
  · rw [stringText, Utf8.encode_ofList]
    rfl
  · have quoted : pieces [] ((s.toList.flatMap escape ++ ['"']).flatMap String.utf8EncodeChar ++
        rest) = some ((s.toList.flatMap piecesOf).reverse, rest) := by
      rw [List.flatMap_append, List.append_assoc, pieces_escapes, List.append_nil, pieces.eq_def]
      rfl
    have text : pieceText (s.toList.flatMap piecesOf) = some s := by
      rw [pieceText, pieceBytes_flatMap]
      simp [← Utf8.encode_eq_flatMap, Utf8.decode?_encode]
    simp only [first, quoted]
    simp [text]

end Token

end Json

end MeshControl
