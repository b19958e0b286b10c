import MeshControl.Json.Basic
import MeshControl.Text.Hex

/-!
# Writing JSON

Values are written without spaces. Inside strings the quote, the backslash and the control
characters are escaped, the latter with their letter where there is one.

## Main definitions

* `Json.text` — the text of a value.
* `Json.sorted` — a value whose objects list their members by name.
-/

namespace MeshControl.Json

open Text

def escape (c : Char) : List Char :=
  if c = '"' then ['\\', '"']
  else if c = '\\' then ['\\', '\\']
  else if c = '\x08' then ['\\', 'b']
  else if c = '\x09' then ['\\', 't']
  else if c = '\x0a' then ['\\', 'n']
  else if c = '\x0c' then ['\\', 'f']
  else if c = '\x0d' then ['\\', 'r']
  else if c.toNat < 32 then
    let digit n := (Char.ofNat (hexDigit n)).toLower
    ['\\', 'u', '0', '0', digit (c.toNat / 16), digit (c.toNat % 16)]
  else [c]

def stringText (s : String) : String :=
  String.ofList ('"' :: s.toList.flatMap escape ++ ['"'])

def Number.text (n : Number) : String :=
  (if n.negative then "-" else "") ++ toString n.whole ++ n.tail

/-- The text of a value. A broken part has none, and is shown as a null. -/
def text : Json → String
  | .null => "null"
  | .bool b => if b then "true" else "false"
  | .number n => n.text
  | .string s => stringText s
  | .array items => "[" ++ itemsText items ++ "]"
  | .object members => "\x7b" ++ membersText members ++ "\x7d"
  | .broken _ => "null"
where
  itemsText : List Json → String
    | [] => ""
    | [v] => v.text
    | v :: rest => v.text ++ "," ++ itemsText rest
  membersText : List (String × Json) → String
    | [] => ""
    | [(k, v)] => stringText k ++ ":" ++ v.text
    | (k, v) :: rest => stringText k ++ ":" ++ v.text ++ "," ++ membersText rest

/-- The value with the members of every object in the order of their names. -/
def sorted : Json → Json
  | .array items => .array (sortedItems items)
  | .object members =>
    .object ((sortedMembers members).mergeSort fun a b => (compare a.1 b.1).isLE)
  | v => v
where
  sortedItems : List Json → List Json
    | [] => []
    | v :: rest => v.sorted :: sortedItems rest
  sortedMembers : List (String × Json) → List (String × Json)
    | [] => []
    | (k, v) :: rest => (k, v.sorted) :: sortedMembers rest

end MeshControl.Json
