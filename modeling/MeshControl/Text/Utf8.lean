/-!
# Texts as bytes

A text is sent as the UTF-8 encoding of its characters. Bytes that are no such encoding either
have no text at all, or are shown with a replacement character for each part that is broken.

## Main definitions

* `Utf8.encode` — the bytes of a text.
* `Utf8.decode?` — the text of the bytes, if they encode one.
* `Utf8.decodeLossy` — the text of the bytes, with U+FFFD for every part that encodes nothing.
-/

namespace MeshControl.Utf8

def encode (s : String) : List UInt8 := s.toUTF8.data.toList

def decode? (bytes : List UInt8) : Option String := String.fromUTF8? ⟨bytes.toArray⟩

theorem decode?_encode (s : String) : decode? (encode s) = some s := by
  simp only [decode?, encode, Array.toArray_toList]
  exact dif_pos s.isValidUTF8

/-- The bounds of each byte that has to follow a leading byte; nothing if the byte leads no
character. -/
def followers (lead : UInt8) : Option (List (UInt8 × UInt8)) :=
  let tail : UInt8 × UInt8 := (0x80, 0xBF)
  if lead < 0x80 then some []
  else if lead < 0xC2 then none
  else if lead ≤ 0xDF then some [tail]
  else if lead = 0xE0 then some [(0xA0, 0xBF), tail]
  else if lead = 0xED then some [(0x80, 0x9F), tail]
  else if lead ≤ 0xEF then some [tail, tail]
  else if lead = 0xF0 then some [(0x90, 0xBF), tail, tail]
  else if lead ≤ 0xF3 then some [tail, tail, tail]
  else if lead = 0xF4 then some [(0x80, 0x8F), tail, tail]
  else none

/-- The bytes that follow the leading byte as its bounds demand, and the rest of the input. -/
def takeFollowers : List (UInt8 × UInt8) → List UInt8 → List UInt8 × List UInt8
  | (lo, hi) :: bounds, b :: rest =>
    if lo ≤ b ∧ b ≤ hi then
      let (taken, left) := takeFollowers bounds rest
      (b :: taken, left)
    else ([], b :: rest)
  | _, rest => ([], rest)

theorem length_takeFollowers (bounds : List (UInt8 × UInt8)) (l : List UInt8) :
    (takeFollowers bounds l).2.length ≤ l.length := by
  induction bounds generalizing l with
  | nil => simp [takeFollowers]
  | cons b bounds ih =>
    cases l with
    | nil => simp [takeFollowers]
    | cons x l =>
      simp only [takeFollowers]
      split
      · exact Nat.le_succ_of_le (ih l)
      · exact Nat.le_refl _

/-- The character of a leading byte and the bytes that follow it. -/
def assemble (lead : UInt8) (tail : List UInt8) : Char :=
  let mask := if tail.isEmpty then 0x7F else if tail.length = 1 then 0x1F
    else if tail.length = 2 then 0x0F else 0x07
  Char.ofNat (tail.foldl (fun n b => n * 64 + (b.toNat &&& 0x3F)) (lead.toNat &&& mask))

/-- The text of the bytes, where the longest start of a character that breaks off, or else a
single byte, becomes one replacement character. -/
def decodeLossy (bytes : List UInt8) : List Char :=
  match bytes with
  | [] => []
  | lead :: rest =>
    match followers lead with
    | none => '\ufffd' :: decodeLossy rest
    | some bounds =>
      let taken := (takeFollowers bounds rest).1
      let c := if taken.length = bounds.length then assemble lead taken else '\ufffd'
      have := length_takeFollowers bounds rest
      c :: decodeLossy (takeFollowers bounds rest).2
termination_by bytes.length
decreasing_by all_goals simp_wf; try omega

end MeshControl.Utf8
