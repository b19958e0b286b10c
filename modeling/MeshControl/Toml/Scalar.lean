import MeshControl.Double
import MeshControl.Text.Decimal
import MeshControl.Text.Hex
import MeshControl.Toml.Value

/-!
# Numbers, dates and truth values in TOML

Each is written as one word. Digits may be grouped by underscores, which stand between digits.

## Main definitions

* `Toml.isWordCharacter` — the characters of such words.
* `Toml.integer?`, `Toml.float?`, `Toml.moment?` — the values of words.
* `Toml.scalar?` — the value of a word of any of these kinds.
-/

namespace MeshControl.Toml

open Text

def isWordCharacter (c : Char) : Bool := c.isAlpha || c.isDigit || "+-_.:".toList.contains c

/-- The parts of a text between copies of a character. -/
def splitAtChar (c : Char) : List Char → List (List Char)
  | [] => [[]]
  | d :: rest =>
    match splitAtChar c rest with
    | [] => [[d]]
    | part :: parts => if d = c then [] :: part :: parts else (d :: part) :: parts

/-- The digits of a text in which they may be grouped. -/
def grouped? (isDigit : Char → Bool) (s : List Char) : Option (List Char) :=
  let groups := splitAtChar '_' s
  if groups.all fun g => g ≠ [] && g.all isDigit then some groups.flatten else none

/-! ## Integers -/

/-- Whether an integer can be stored in 64 bits. -/
def inRange (n : Int) : Bool := -9223372036854775808 ≤ n && n < 9223372036854775808

def splitSign : List Char → Bool × List Char
  | '+' :: rest => (false, rest)
  | '-' :: rest => (true, rest)
  | rest => (false, rest)

/-- The digits of a decimal number, which has no zeros in front. -/
def decimalDigits? (s : List Char) : Option (List Char) :=
  (grouped? Char.isDigit s).filter fun digits => digits.head? ≠ some '0' || digits.length = 1

/-- Whether a character is a digit in a base of at most 16. -/
def isDigitOf (radix : Nat) (c : Char) : Bool := (hexValue? c.toNat).any (· < radix)

def radixNumber? (radix : Nat) (s : List Char) : Option Nat :=
  (grouped? (isDigitOf radix) s).map fun digits =>
    digits.foldl (fun n c => radix * n + (hexValue? c.toNat).getD 0) 0

/-- The number that a word writes, in base 10 or in another that is marked. -/
def anyInteger? : List Char → Option Int
  | '0' :: 'x' :: rest => (radixNumber? 16 rest).map Int.ofNat
  | '0' :: 'o' :: rest => (radixNumber? 8 rest).map Int.ofNat
  | '0' :: 'b' :: rest => (radixNumber? 2 rest).map Int.ofNat
  | s =>
    let (negative, digits) := splitSign s
    (decimalDigits? digits).map fun digits =>
      if negative then -Int.ofNat (natOfDigits digits) else Int.ofNat (natOfDigits digits)

def integer? (s : List Char) : Option Int := (anyInteger? s).filter inRange

/-! ## Numbers with a fraction or an exponent -/

/-- The characters before the first one of some kind, that one, and those after it. -/
def breakAt (p : Char → Bool) (s : List Char) : List Char × List Char :=
  (s.takeWhile (!p ·), s.dropWhile (!p ·))

/-- An exponent: whether it is negative, and its value. Without digits it is none. -/
def exponent? : List Char → Option (Bool × Nat)
  | [] => some (false, 0)
  | _ :: rest =>
    let (negative, digits) := splitSign rest
    (grouped? Char.isDigit digits).map fun digits => (negative, natOfDigits digits)

def fraction? : List Char → Option (List Char)
  | [] => some []
  | _ :: rest => grouped? Char.isDigit rest

/-- Whether a word writes a finite number, or a negative one of any size. -/
def isFiniteWord (s : List Char) : Bool :=
  let (negative, s) := splitSign s
  let (mantissa, mark) := breakAt (fun c => c = 'e' || c = 'E') s
  let (whole, point) := breakAt (· = '.') mantissa
  match decimalDigits? whole, fraction? point, exponent? mark with
  | some whole, some fraction, some (negativeExponent, exponent) =>
    (point ≠ [] || mark ≠ []) &&
      (negative ||
        Double.isFinite (natOfDigits (whole ++ fraction)) negativeExponent exponent
          fraction.length)
  | _, _, _ => false

def notFinite : List String := ["inf", "nan"]

def float? (s : List Char) : Option Toml :=
  if isFiniteWord s || notFinite.contains (String.ofList (splitSign s).2) then
    some (.float (String.ofList s))
  else none

/-! ## Dates and times -/

/-- A number of exactly so many digits, within bounds. -/
def field? (width low high : Nat) (s : List Char) : Option Nat :=
  if s.length = width then (decimal? s).filter fun n => low ≤ n && n ≤ high else none

def isLeapYear (y : Nat) : Bool := y % 4 = 0 && (y % 100 ≠ 0 || y % 400 = 0)

def daysInMonth (year month : Nat) : Nat :=
  if month = 2 then if isLeapYear year then 29 else 28
  else if [4, 6, 9, 11].contains month then 30
  else 31

def isDate (s : List Char) : Bool :=
  match splitAtChar '-' s with
  | [year, month, day] =>
    match field? 4 0 9999 year, field? 2 1 12 month, field? 2 1 31 day with
    | some y, some m, some d => d ≤ daysInMonth y m
    | _, _, _ => false
  | _ => false

/-- Whether a text writes seconds, perhaps with a fraction. -/
def isSeconds (s : List Char) : Bool :=
  let (whole, point) := breakAt (· = '.') s
  (field? 2 0 60 whole).isSome && (point = [] || (decimal? (point.drop 1)).isSome)

def isTime (s : List Char) : Bool :=
  match splitAtChar ':' s with
  | [hour, minute, second] =>
    (field? 2 0 23 hour).isSome && (field? 2 0 59 minute).isSome && isSeconds second
  | _ => false

/-- Whether a text writes the distance from universal time, or nothing. -/
def isOffset : List Char → Bool
  | [] => true
  | ['Z'] | ['z'] => true
  | sign :: rest =>
    (sign = '+' || sign = '-') &&
      match splitAtChar ':' rest with
      | [hour, minute] => (field? 2 0 23 hour).isSome && (field? 2 0 59 minute).isSome
      | _ => false

/-- Whether a text writes a time, perhaps with the distance from universal time. -/
def isZonedTime (s : List Char) : Bool :=
  let (time, offset) := breakAt (fun c => "Zz+-".toList.contains c) s
  isTime time && isOffset offset

def dateLength : Nat := 10

/-- Whether a text writes a date, a time, or a date with a time after one of the given marks. -/
def isMoment (marks : List Char) (s : List Char) : Bool :=
  isTime s || isDate s ||
    match s.drop dateLength with
    | mark :: time => isDate (s.take dateLength) && marks.contains mark && isZonedTime time
    | [] => false

def moment? (s : List Char) : Option Toml :=
  if isMoment ['T', 't', ' '] s then some (.moment (String.ofList s)) else none

/-! ## Any of them -/

def scalar? (s : List Char) : Option Toml :=
  if s = ['t', 'r', 'u', 'e'] then some (.boolean true)
  else if s = ['f', 'a', 'l', 's', 'e'] then some (.boolean false)
  else ((integer? s).map Toml.integer).or ((float? s).or (moment? s))

end MeshControl.Toml
