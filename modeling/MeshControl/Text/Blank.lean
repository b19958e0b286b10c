/-!
# White space

The characters with the Unicode property White_Space, and texts without those at their ends.

## Main definitions

* `Text.isBlank` — whether a character is white space.
* `Text.trim` — a text without the white space at its ends.
-/

namespace MeshControl.Text

/-- Whether a character has the property White_Space. -/
def isBlank (c : Char) : Bool :=
  let n := c.toNat
  (9 ≤ n && n ≤ 13) || n == 32 || n == 133 || n == 160 || n == 5760 ||
    (8192 ≤ n && n ≤ 8202) || n == 8232 || n == 8233 || n == 8239 || n == 8287 || n == 12288

/-- The characters without the white space at their ends. -/
def trim (s : List Char) : List Char :=
  ((s.dropWhile isBlank).reverse.dropWhile isBlank).reverse

end MeshControl.Text
