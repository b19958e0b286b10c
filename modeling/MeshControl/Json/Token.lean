import MeshControl.Double
import MeshControl.Json.Basic
import MeshControl.Text.Hex
import MeshControl.Text.Utf8

/-!
# JSON tokens

The bytes of a JSON text as punctuation, words, numbers and strings.

## Main definitions

* `Json.Token` — one lexical element.
* `Json.Token.scan` — the elements of a byte sequence, up to the first byte that begins none.
-/

namespace MeshControl.Json

open Text

inductive Token where
  | openArray
  | closeArray
  | openObject
  | closeObject
  | colon
  | comma
  | null
  | bool (b : Bool)
  | number (n : Number)
  | string (s : String)
  /-- A string literal that denotes no text. -/
  | garbledText
  /-- A number literal out of range. -/
  | garbledNumber
  /-- Something that is no element of JSON. Nothing follows it. -/
  | stray
  deriving DecidableEq, Inhabited

namespace Token

/-! ## Strings -/

/-- A piece of a string literal: a byte that stands for itself, or a 16-bit unit given by its
number. -/
inductive Piece where
  | byte (b : UInt8)
  | unit (n : Nat)
  deriving DecidableEq, Inhabited

def escapeOf (b : UInt8) : Option UInt8 :=
  if b = 0x22 then some 0x22
  else if b = 0x5C then some 0x5C
  else if b = 0x2F then some 0x2F
  else if b = 0x62 then some 0x08
  else if b = 0x66 then some 0x0C
  else if b = 0x6E then some 0x0A
  else if b = 0x72 then some 0x0D
  else if b = 0x74 then some 0x09
  else none

def unitOf (a b c d : UInt8) : Option Nat :=
  match hexValue? a.toNat, hexValue? b.toNat, hexValue? c.toNat, hexValue? d.toNat with
  | some w, some x, some y, some z => some (((w * 16 + x) * 16 + y) * 16 + z)
  | _, _, _, _ => none

/-- The pieces of a string literal after its opening quote, in reverse after `acc`, and the
bytes after its closing quote. -/
def pieces (acc : List Piece) : List UInt8 → Option (List Piece × List UInt8)
  | [] => none
  | b :: rest =>
    if b = 0x22 then some (acc, rest)
    else if b = 0x5C then
      match rest with
      | [] => none
      | e :: rest =>
        if e = 0x75 then
          match rest with
          | h₁ :: h₂ :: h₃ :: h₄ :: rest =>
            match unitOf h₁ h₂ h₃ h₄ with
            | some n => pieces (.unit n :: acc) rest
            | none => none
          | _ => none
        else
          match escapeOf e with
          | some c => pieces (.byte c :: acc) rest
          | none => none
    else if b < 0x20 then none
    else pieces (.byte b :: acc) rest

theorem length_pieces {acc : List Piece} {l : List UInt8} {p : List Piece × List UInt8}
    (h : pieces acc l = some p) : p.2.length < l.length := by
  fun_induction pieces acc l <;> grind

def isHighUnit (n : Nat) : Bool := 0xD800 ≤ n && n < 0xDC00

def isLowUnit (n : Nat) : Bool := 0xDC00 ≤ n && n < 0xE000

/-- The bytes of a string's pieces. A unit above 0xD7FF and below 0xDC00 needs one of the next
1024 after it, and no other place has one of those. The bytes before are in reverse. -/
def pieceBytes (acc : List UInt8) : List Piece → Option (List UInt8)
  | [] => some acc.reverse
  | .byte b :: rest => pieceBytes (b :: acc) rest
  | .unit n :: rest =>
    if isHighUnit n then
      match rest with
      | .unit m :: rest =>
        if isLowUnit m then
          let c := Char.ofNat (0x10000 + (n - 0xD800) * 1024 + (m - 0xDC00))
          pieceBytes ((String.utf8EncodeChar c).reverse ++ acc) rest
        else none
      | _ => none
    else if isLowUnit n then none
    else pieceBytes ((String.utf8EncodeChar (Char.ofNat n)).reverse ++ acc) rest

def pieceText (ps : List Piece) : Option String :=
  (pieceBytes [] ps).bind Utf8.decode?

/-! ## Numbers -/

def isDigit (b : UInt8) : Bool := 0x30 ≤ b && b ≤ 0x39

def digits (l : List UInt8) : List UInt8 × List UInt8 := (l.takeWhile isDigit, l.dropWhile isDigit)

def natOfDigits (ds : List UInt8) : Nat := ds.foldl (fun n d => n * 10 + (d.toNat - 48)) 0

def asciiText (bytes : List UInt8) : String := String.ofList (bytes.map fun b => Char.ofNat b.toNat)

/-- The digits before the point: a zero alone, or a number that begins with another digit. -/
def wholeDigits (l : List UInt8) : Option (List UInt8 × List UInt8) :=
  match digits l with
  | ([], _) => none
  | (d :: ds, rest) => if d = 0x30 ∧ ds ≠ [] then none else some (d :: ds, rest)

def fractionDigits : List UInt8 → Option (List UInt8 × List UInt8)
  | [] => some ([], [])
  | b :: rest =>
    if b = 0x2E then
      match digits rest with
      | ([], _) => none
      | (ds, rest) => some (ds, rest)
    else some ([], b :: rest)

/-- An exponent: its mark as written, whether it is negative, its digits, and the rest. -/
def exponentDigits : List UInt8 → Option (List UInt8 × Bool × List UInt8 × List UInt8)
  | [] => some ([], false, [], [])
  | b :: rest =>
    if b = 0x65 ∨ b = 0x45 then
      let (sign, after) := match rest with
        | s :: r => if s = 0x2B ∨ s = 0x2D then ([s], r) else ([], s :: r)
        | [] => ([], [])
      match digits after with
      | ([], _) => none
      | (ds, rest) => some (b :: sign, sign = [0x2D], ds, rest)
    else some ([], false, [], b :: rest)

/-! ## Range

A literal is not taken for its exact value. The digits that make a number of 64 bits count, the
others only move the point, and a power of ten is multiplied in the end. Each step rounds, so a
literal close to the greatest number may be out of range though its exact value is not. -/

/-- The number `significand * 10 ^ exponent`. -/
structure Scaled where
  significand : Nat
  exponent : Int

/-- Whether another digit leaves the significand below 2 ^ 64. -/
def Scaled.takes (x : Scaled) (digit : UInt8) : Bool :=
  x.significand * 10 + (digit.toNat - 48) < UInt64.size

/-- The digits before the point. From the first that does not fit they only move the point. -/
def Scaled.whole (x : Scaled) : List UInt8 → Scaled
  | [] => x
  | d :: ds =>
    if x.takes d then whole { x with significand := x.significand * 10 + (d.toNat - 48) } ds
    else { x with exponent := x.exponent + ds.length + 1 }

/-- The digits after the point. From the first that does not fit they are dropped. -/
def Scaled.fraction (x : Scaled) : List UInt8 → Scaled
  | [] => x
  | d :: ds =>
    if x.takes d then
      fraction ⟨x.significand * 10 + (d.toNat - 48), x.exponent - 1⟩ ds
    else x

def maxPower : Nat := 308

/-- The greatest exponent that is read as a number. -/
def maxExponent : Nat := Int32.maxValue.toInt.toNat

def Scaled.isFinite (x : Scaled) : Bool :=
  if x.significand = 0 || x.exponent < 0 then true
  else if x.exponent > maxPower then false
  else Double.productIsFinite x.significand (Double.decimal x.exponent.toNat)

/-- Whether a literal with these digits and this exponent is in range. -/
def isFinite (whole fraction : List UInt8) (negativeExponent : Bool) (exponent : Nat) : Bool :=
  let x := (Scaled.whole ⟨0, 0⟩ whole).fraction fraction
  if negativeExponent then { x with exponent := x.exponent - exponent }.isFinite
  else if exponent > maxExponent then x.significand = 0
  else { x with exponent := x.exponent + exponent }.isFinite

def numberToken (l : List UInt8) : Option (Token × List UInt8) := do
  let (negative, l) := match l with
    | b :: rest => if b = 0x2D then (true, rest) else (false, b :: rest)
    | [] => (false, [])
  let (whole, l) ← wholeDigits l
  let (fraction, l) ← fractionDigits l
  let (mark, negativeExponent, exponent, l) ← exponentDigits l
  let tail := (if fraction.isEmpty then [] else 0x2E :: fraction) ++ mark ++ exponent
  if isFinite whole fraction negativeExponent (natOfDigits exponent) then
    some (.number ⟨negative, natOfDigits whole, asciiText tail⟩, l)
  else some (.garbledNumber, l)

/-! ## Scanning -/

def isSpace (b : UInt8) : Bool := b == 0x20 || b == 0x0A || b == 0x0D || b == 0x09

/-- The bytes after a word, if the input begins with it. -/
def afterWord (word : List UInt8) (l : List UInt8) : Option (List UInt8) :=
  if word.isPrefixOf l then some (l.drop word.length) else none

def first (b : UInt8) (rest : List UInt8) : Option (Token × List UInt8) :=
  if b = 0x5B then some (.openArray, rest)
  else if b = 0x5D then some (.closeArray, rest)
  else if b = 0x7B then some (.openObject, rest)
  else if b = 0x7D then some (.closeObject, rest)
  else if b = 0x3A then some (.colon, rest)
  else if b = 0x2C then some (.comma, rest)
  else if b = 0x22 then
    (pieces [] rest).map fun p => match pieceText p.1.reverse with
      | some s => (.string s, p.2)
      | none => (.garbledText, p.2)
  else if b = 0x6E then (afterWord [0x75, 0x6C, 0x6C] rest).map (.null, ·)
  else if b = 0x74 then (afterWord [0x72, 0x75, 0x65] rest).map (.bool true, ·)
  else if b = 0x66 then (afterWord [0x61, 0x6C, 0x73, 0x65] rest).map (.bool false, ·)
  else numberToken (b :: rest)

theorem length_digits (l : List UInt8) :
    (digits l).1.length + (digits l).2.length = l.length := by
  rw [← List.length_append]
  exact congrArg List.length List.takeWhile_append_dropWhile

theorem length_wholeDigits {l : List UInt8} {p : List UInt8 × List UInt8}
    (h : wholeDigits l = some p) : p.2.length < l.length := by
  have hl := length_digits l
  simp only [wholeDigits] at h
  split at h
  · simp at h
  · rename_i d ds rest hd
    rw [hd] at hl
    split at h
    · simp at h
    · cases h
      simp only [List.length_cons] at hl ⊢
      omega

theorem length_fractionDigits {l : List UInt8} {p : List UInt8 × List UInt8}
    (h : fractionDigits l = some p) : p.2.length ≤ l.length := by
  unfold fractionDigits at h
  split at h
  · cases h; simp
  · rename_i b rest
    have hl := length_digits rest
    split at h
    · split at h
      · simp at h
      · rename_i ds rest' hd
        rw [hd] at hl
        cases h
        simp only [List.length_cons] at hl ⊢
        omega
    · cases h
      simp

theorem length_exponentDigits {l : List UInt8} {p : List UInt8 × Bool × List UInt8 × List UInt8}
    (h : exponentDigits l = some p) : p.2.2.2.length ≤ l.length := by
  unfold exponentDigits at h
  split at h
  · cases h; simp
  · rename_i b rest
    split at h
    · simp only at h
      split at h
      · simp at h
      · rename_i ds rest' hd
        cases h
        simp only
        rcases rest with _ | ⟨s, r⟩
        · have hl := length_digits ([] : List UInt8)
          simp only at hd
          rw [hd] at hl
          simp only [List.length_cons, List.length_nil] at hl ⊢
          omega
        · simp only at hd
          split at hd
          · have hl := length_digits r
            rw [hd] at hl
            simp only [List.length_cons] at hl ⊢
            omega
          · have hl := length_digits (s :: r)
            rw [hd] at hl
            simp only [List.length_cons] at hl ⊢
            omega
    · cases h
      simp

theorem length_numberToken {l : List UInt8} {p : Token × List UInt8}
    (h : numberToken l = some p) : p.2.length < l.length := by
  simp only [numberToken, Option.bind_eq_bind, Option.bind_eq_some_iff] at h
  obtain ⟨w, hw, f, hf, e, he, h⟩ := h
  have h1 := length_wholeDigits hw
  have h2 := length_fractionDigits hf
  have h3 := length_exponentDigits he
  have h4 : p.2 = e.2.2.2 := by
    split at h <;> (cases h; rfl)
  rw [h4]
  have h5 : (match l with
      | b :: rest => if b = 0x2D then (true, rest) else (false, b :: rest)
      | [] => (false, [])).2.length ≤ l.length := by
    split
    · split <;> simp
    · simp
  omega

theorem length_first {b : UInt8} {rest : List UInt8} {p : Token × List UInt8}
    (h : first b rest = some p) : p.2.length < (b :: rest).length := by
  have word : ∀ {w : List UInt8} {t : Token},
      (afterWord w rest).map (t, ·) = some p → p.2.length < (b :: rest).length := by
    intro w t hw
    obtain ⟨r, hr, rfl⟩ := Option.map_eq_some_iff.1 hw
    simp only [afterWord] at hr
    split at hr
    · cases hr
      simp only [List.length_drop, List.length_cons]
      omega
    · simp at hr
  have text : ((pieces [] rest).map fun q => match pieceText q.1.reverse with
      | some s => (Token.string s, q.2)
      | none => (Token.garbledText, q.2)) = some p → p.2.length < (b :: rest).length := by
    intro hp
    obtain ⟨q, hq, rfl⟩ := Option.map_eq_some_iff.1 hp
    have := length_pieces hq
    simp only [List.length_cons]
    split <;> (simp only; omega)
  have mark : ∀ {t : Token}, some (t, rest) = some p → p.2.length < (b :: rest).length := by
    intro t ht
    cases ht
    simp
  unfold first at h
  split at h
  · exact mark h
  split at h
  · exact mark h
  split at h
  · exact mark h
  split at h
  · exact mark h
  split at h
  · exact mark h
  split at h
  · exact mark h
  split at h
  · exact text h
  split at h
  · exact word h
  split at h
  · exact word h
  split at h
  · exact word h
  · exact length_numberToken h

/-- The elements of the input, in reverse after `acc`. -/
def scanOnto (acc : List Token) (l : List UInt8) : List Token :=
  match l with
  | [] => acc
  | b :: rest =>
    if isSpace b then scanOnto acc rest
    else
      match h : first b rest with
      | some (t, left) =>
        have := length_first h
        scanOnto (t :: acc) left
      | none => .stray :: acc
termination_by l.length
decreasing_by
  · simp
  · simpa using this

def scan (l : List UInt8) : List Token := (scanOnto [] l).reverse

end Token

end MeshControl.Json
