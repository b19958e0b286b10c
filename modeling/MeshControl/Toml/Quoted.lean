import MeshControl.Text.Hex

/-!
# Quoted text in TOML

A text stands between quotation marks, where a backslash begins an escape, or between
apostrophes, where every character stands for itself. Tripled, both may span several lines.

## Main definitions

* `Toml.basic?`, `Toml.literal?` — the rest of a text on one line, after its opening mark.
* `Toml.basicLines?`, `Toml.literalLines?` — the rest of a text on several lines.
* `Toml.quoted?` — a text of any kind.
-/

namespace MeshControl.Toml

open Text

abbrev TextReading := Option (List Char × List Char)

/-- Whether a character may stand in a text or a comment. -/
def isVisible (c : Char) : Bool := c = '\t' || (' ' ≤ c && c ≠ '\x7f')

def named? (digits : List Char) : Option Char := do
  let values ← digits.mapM fun c => hexValue? c.toNat
  let n := values.foldl (fun n v => 16 * n + v) 0
  if h : n.isValidChar then some (Char.ofNatAux n h) else none

def escaped? (c : Char) : Option Char :=
  [('b', '\x08'), ('t', '\t'), ('n', '\n'), ('f', '\x0c'), ('r', '\r'), ('"', '"'),
    ('\\', '\\')].lookup c

def put (c : Char) (r : TextReading) : TextReading := r.map fun p => (c :: p.1, p.2)

/-! ## One line -/

/-- The rest of a text with escapes. -/
def basic? : List Char → TextReading
  | [] => none
  | '"' :: rest => some ([], rest)
  | '\\' :: 'u' :: a :: b :: c :: d :: rest =>
    (named? [a, b, c, d]).bind fun x => put x (basic? rest)
  | '\\' :: 'U' :: a :: b :: c :: d :: e :: f :: g :: h :: rest =>
    (named? [a, b, c, d, e, f, g, h]).bind fun x => put x (basic? rest)
  | '\\' :: c :: rest => (escaped? c).bind fun x => put x (basic? rest)
  | c :: rest => if isVisible c && c ≠ '\\' then put c (basic? rest) else none

/-- The rest of a text without escapes. -/
def literal? : List Char → TextReading
  | [] => none
  | '\'' :: rest => some ([], rest)
  | c :: rest => if isVisible c then put c (literal? rest) else none

/-! ## Several lines -/

/-- What is done with blank characters. -/
inductive Folding where
  /-- They are kept. -/
  | keep
  /-- They are dropped, and the end of the line has to come. -/
  | toLineEnd
  /-- They are dropped, and ends of lines with them. -/
  | drop
  deriving DecidableEq

/-- The rest of a text with escapes. A backslash at the end of a line joins it to the next text
that is not blank. -/
def basicLines? : Folding → List Char → TextReading
  | _, [] => none
  | .keep, '\r' :: '\n' :: rest => put '\n' (basicLines? .keep rest)
  | .keep, '\n' :: rest => put '\n' (basicLines? .keep rest)
  | .toLineEnd, '\r' :: '\n' :: rest => basicLines? .drop rest
  | .toLineEnd, c :: rest =>
    if c = '\n' then basicLines? .drop rest
    else if c = ' ' || c = '\t' then basicLines? .toLineEnd rest
    else none
  | .drop, '\r' :: '\n' :: rest => basicLines? .drop rest
  | .drop, '\n' :: rest => basicLines? .drop rest
  | .drop, ' ' :: rest => basicLines? .drop rest
  | .drop, '\t' :: rest => basicLines? .drop rest
  | _, '"' :: '"' :: '"' :: '"' :: '"' :: rest => some (['"', '"'], rest)
  | _, '"' :: '"' :: '"' :: '"' :: rest => some (['"'], rest)
  | _, '"' :: '"' :: '"' :: rest => some ([], rest)
  | _, '\\' :: 'u' :: a :: b :: c :: d :: rest =>
    (named? [a, b, c, d]).bind fun x => put x (basicLines? .keep rest)
  | _, '\\' :: 'U' :: a :: b :: c :: d :: e :: f :: g :: h :: rest =>
    (named? [a, b, c, d, e, f, g, h]).bind fun x => put x (basicLines? .keep rest)
  | _, '\\' :: c :: rest =>
    match escaped? c with
    | some x => put x (basicLines? .keep rest)
    | none =>
      if c = '\n' then basicLines? .drop rest
      else if c = ' ' || c = '\t' || c = '\r' then
        if c = '\r' && rest.head? ≠ some '\n' then none else basicLines? .toLineEnd rest
      else none
  | _, c :: rest => if isVisible c && c ≠ '\\' then put c (basicLines? .keep rest) else none

def literalLines? : List Char → TextReading
  | [] => none
  | '\r' :: '\n' :: rest => put '\n' (literalLines? rest)
  | '\n' :: rest => put '\n' (literalLines? rest)
  | '\'' :: '\'' :: '\'' :: '\'' :: '\'' :: rest => some (['\'', '\''], rest)
  | '\'' :: '\'' :: '\'' :: '\'' :: rest => some (['\''], rest)
  | '\'' :: '\'' :: '\'' :: rest => some ([], rest)
  | c :: rest => if isVisible c then put c (literalLines? rest) else none

/-- The characters after an end of a line, if there is one. -/
def afterLineEnd : List Char → List Char
  | '\r' :: '\n' :: rest => rest
  | '\n' :: rest => rest
  | rest => rest

/-! ## Any kind -/

def quotedLine? : List Char → TextReading
  | '"' :: rest => basic? rest
  | '\'' :: rest => literal? rest
  | _ => none

/-- A text of any kind. An end of a line after a tripled mark is not part of it. -/
def quoted? : List Char → TextReading
  | '"' :: '"' :: '"' :: rest => basicLines? .keep (afterLineEnd rest)
  | '\'' :: '\'' :: '\'' :: rest => literalLines? (afterLineEnd rest)
  | rest => quotedLine? rest

end MeshControl.Toml
