import MeshControl.Toml.Quoted
import MeshControl.Toml.Scalar
import MeshControl.Toml.Tree

/-!
# Reading TOML

A text is a sequence of lines: members of the table that is open, and headers that open other
tables. A value may nest only so deep.

## Main definitions

* `Toml.value?` — the value at the beginning of a text.
* `Toml.Line`, `Toml.line?` — one line with what it states.
* `Toml.parse?` — the table that a whole text writes.
-/

namespace MeshControl.Toml

/-- The most that values nest, and the most parts of a name. -/
def maxDepth : Nat := 79

/-! ## Between the words -/

def isBlankInLine (c : Char) : Bool := c = ' ' || c = '\t'

def skipBlanks (s : List Char) : List Char := s.dropWhile isBlankInLine

/-- Skip blanks, ends of lines and comments. -/
def skipTrivia : (inComment : Bool) → List Char → Option (List Char)
  | _, [] => some []
  | _, '\r' :: '\n' :: rest => skipTrivia false rest
  | _, '\n' :: rest => skipTrivia false rest
  | true, c :: rest => if isVisible c then skipTrivia true rest else none
  | false, c :: rest =>
    if isBlankInLine c then skipTrivia false rest
    else if c = '#' then skipTrivia true rest
    else some (c :: rest)

/-- Skip blanks and a comment up to the end of the line, which has to come. -/
def skipLine : (inComment : Bool) → List Char → Option (List Char)
  | _, [] => some []
  | _, '\r' :: '\n' :: rest => some rest
  | _, '\n' :: rest => some rest
  | true, c :: rest => if isVisible c then skipLine true rest else none
  | false, c :: rest =>
    if isBlankInLine c then skipLine false rest
    else if c = '#' then skipLine true rest
    else none

def expect (c : Char) : List Char → Option (List Char)
  | [] => none
  | d :: rest => if c = d then some rest else none

/-! ## Names -/

def isBareCharacter (c : Char) : Bool := c.isAlpha || c.isDigit || c = '_' || c = '-'

def namePart? (s : List Char) : Option (String × List Char) :=
  match s with
  | '"' :: _ | '\'' :: _ => (quotedLine? s).map fun p => (String.ofList p.1, p.2)
  | _ =>
    let bare := s.takeWhile isBareCharacter
    if bare = [] then none else some (String.ofList bare, s.dropWhile isBareCharacter)

/-- The parts of a name with dots between them. -/
def nameParts? : (fuel : Nat) → List Char → Option (List String × List Char)
  | 0, _ => none
  | fuel + 1, s => do
    let (part, s) ← namePart? (skipBlanks s)
    match skipBlanks s with
    | '.' :: rest =>
      let (parts, rest) ← nameParts? fuel rest
      return (part :: parts, rest)
    | rest => return ([part], rest)

/-- A name: the parts before the last one, and the last one. -/
def name? (s : List Char) : Option ((List String × String) × List Char) := do
  let (parts, rest) ← nameParts? (s.length + 1) s
  if parts.length > maxDepth then none
  let last ← parts.getLast?
  return ((parts.dropLast, last), rest)

/-! ## Values -/

/-- A word. A date may be followed by a blank and a time. -/
def word (s : List Char) : List Char × List Char :=
  let first := s.takeWhile isWordCharacter
  let rest := s.dropWhile isWordCharacter
  match rest with
  | ' ' :: c :: more =>
    if isDate first && c.isDigit then
      (first ++ ' ' :: (c :: more).takeWhile isWordCharacter, (c :: more).dropWhile isWordCharacter)
    else (first, rest)
  | _ => (first, rest)

def arrayItems? (item : List Char → Option (Toml × List Char)) :
    (fuel : Nat) → List Char → Option (List Toml × List Char)
  | 0, _ => none
  | fuel + 1, s => do
    let s ← skipTrivia false s
    if s.head? = some ']' then return ([], s.drop 1)
    let (v, s) ← item s
    match ← skipTrivia false s with
    | ',' :: rest =>
      let (vs, rest) ← arrayItems? item fuel rest
      return (v :: vs, rest)
    | ']' :: rest => return ([v], rest)
    | _ => none

/-- A name and a value with an equals sign between them. -/
def pair? (item : List Char → Option (Toml × List Char)) (s : List Char) :
    Option (((List String × String) × Toml) × List Char) := do
  let (name, s) ← name? s
  let s ← expect '=' s
  let (v, s) ← item (skipBlanks s)
  return ((name, v), s)

/-- The members of a table on one line up to its end, added to those before them. -/
def inlineMembers? (item : List Char → Option (Toml × List Char)) :
    (fuel : Nat) → Members → List Char → Option (Members × List Char)
  | 0, _, _ => none
  | fuel + 1, members, s => do
    let (((path, name), v), s) ← pair? item s
    let members ← addPair path name v .stated members
    match skipBlanks s with
    | ',' :: rest => inlineMembers? item fuel members rest
    | '}' :: rest => return (members, rest)
    | _ => none

def value? : (depth : Nat) → List Char → Option (Toml × List Char)
  | depth, s =>
    match s with
    | '"' :: _ | '\'' :: _ => (quoted? s).map fun p => (.string (String.ofList p.1), p.2)
    | '[' :: rest =>
      match depth with
      | 0 => none
      | depth + 1 =>
        (arrayItems? (value? depth) (s.length + 1) rest).map fun p => (.array p.1, p.2)
    | '{' :: rest =>
      match depth with
      | 0 => none
      | depth + 1 =>
        match skipBlanks rest with
        | '}' :: rest => some (.table [], rest)
        | inner =>
          (inlineMembers? (value? depth) (s.length + 1) [] inner).map fun p =>
            (.table (membersToToml p.1), p.2)
    | _ => (scalar? (word s).1).map fun v => (v, (word s).2)

/-! ## Lines -/

/-- What a line states. -/
inductive Line where
  | pair (path : List String) (name : String) (v : Toml)
  | header (path : List String) (name : String)
  | itemHeader (path : List String) (name : String)

def line? (s : List Char) : Option (Line × List Char) := do
  match s with
  | '[' :: '[' :: rest =>
    let ((path, name), rest) ← name? rest
    let rest ← skipLine false (← expect ']' (← expect ']' rest))
    return (.itemHeader path name, rest)
  | '[' :: rest =>
    let ((path, name), rest) ← name? rest
    let rest ← skipLine false (← expect ']' rest)
    return (.header path name, rest)
  | s =>
    let (((path, name), v), rest) ← pair? (value? maxDepth) s
    return (.pair path name v, ← skipLine false rest)

/-- The table under construction, and the path to the part of it that is open. -/
structure Progress where
  root : Members
  openPath : List String

def Progress.add (p : Progress) : Line → Option Progress
  | .pair path name v =>
    (alter false (addPair path name v) p.openPath .stated p.root).map fun root =>
      { p with root }
  | .header path name =>
    (alter false (openTable name) path .stated p.root).map fun root => ⟨root, path ++ [name]⟩
  | .itemHeader path name =>
    (alter false (openItem name) path .stated p.root).map fun root => ⟨root, path ++ [name]⟩

def lines? : (fuel : Nat) → Progress → List Char → Option Progress
  | 0, _, _ => none
  | fuel + 1, p, s => do
    let s ← skipTrivia false s
    if s.isEmpty then return p
    let (line, rest) ← line? s
    lines? fuel (← p.add line) rest

/-- The mark that may stand before a text to tell its encoding. -/
def byteOrderMark : Char := '\uFEFF'

/-- The characters without a mark before them. -/
def withoutMark : List Char → List Char
  | [] => []
  | c :: rest => if c = byteOrderMark then rest else c :: rest

def parse? (text : String) : Option (List (String × Toml)) :=
  let s := withoutMark text.toList
  (lines? (s.length + 1) ⟨[], []⟩ s).map fun p => membersToToml p.root

end MeshControl.Toml
