/-!
Numerals of a fixed width, as dates and names are written with: zeros fill up on the left.
-/

namespace MediaCatalog.Text

/-- The last `width` digits of `n` in a base of at most sixteen. -/
def fixedNumeral (base : Nat) : (width : Nat) → (n : Nat) → List Char
  | 0, _ => []
  | width + 1, n => fixedNumeral base width (n / base) ++ [Nat.digitChar (n % base)]

abbrev decimal (width n : Nat) : List Char :=
  fixedNumeral 10 width n

@[simp] theorem length_fixedNumeral (base width n : Nat) :
    (fixedNumeral base width n).length = width := by
  induction width generalizing n with
  | zero => rfl
  | succ width ih => simp [fixedNumeral, ih]

def asciiDigit? (c : Char) : Option Nat :=
  if c.isDigit then some (c.toNat - '0'.toNat) else none

/-- Reads exactly `width` of the digits `0` to `9` from the front of a text, most significant first;
`value` is what was read before. -/
def readNumeralFrom (value : Nat) : (width : Nat) → List Char → Option (Nat × List Char)
  | 0, text => some (value, text)
  | _ + 1, [] => none
  | width + 1, c :: rest =>
    match asciiDigit? c with
    | some digit => readNumeralFrom (10 * value + digit) width rest
    | none => none

def readNumeral (width : Nat) (text : List Char) : Option (Nat × List Char) :=
  readNumeralFrom 0 width text

/-- The decimal digits of an integer, with a minus sign before a negative one. -/
def integer (n : Int) : String :=
  if n < 0 then "-" ++ n.natAbs.repr else n.natAbs.repr

end MediaCatalog.Text
