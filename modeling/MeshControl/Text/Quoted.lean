import MeshControl.Text.Printable

/-!
# Quoted text

How messages show a text that the caller sent: between double quotes, on one line, with every
character that would not show by itself replaced by an escape.

## Main definitions

* `Text.escape` — one character inside quotes.
* `Text.quote` — a text between quotes.
-/

namespace MeshControl.Text

/-- The digits of `n` in base sixteen, in lower case. -/
def hexDigits (n : Nat) : List Char := Nat.toDigits 16 n

def escape (c : Char) : List Char :=
  if c = '"' then ['\\', '"']
  else if c = '\\' then ['\\', '\\']
  else if c = '\n' then ['\\', 'n']
  else if c = '\r' then ['\\', 'r']
  else if c = '\t' then ['\\', 't']
  else if c = '\x00' then ['\\', '0']
  else if isExtender c || !isPrintable c then
    ['\\', 'u', '\x7b'] ++ hexDigits c.toNat ++ ['\x7d']
  else [c]

def quote (s : String) : String :=
  String.ofList (['"'] ++ s.toList.flatMap escape ++ ['"'])

end MeshControl.Text
