import MediaCatalog.Calendar.DateTime
import MediaCatalog.Text.Blank
import MediaCatalog.Text.Digit

/-!
The time stamps of cameras, `YYYY:MM:DD HH:MM:SS`. Fields of two digits may have one, any white space may stand
before the time, and digits of any script will do where no digit is ruled out.
-/

namespace MediaCatalog.Calendar.CameraStamp

open Text

/-- The ways to read numbers from the front of a text, the preferred one first, each with what is left. -/
abbrev Reader := List Char → List (List Nat × List Char)

def anyDigit : Reader
  | c :: rest => ((digitValue? c).map fun value => ([value], rest)).toList
  | [] => []

def digitIn (low high : Char) : Reader
  | c :: rest => if low ≤ c ∧ c ≤ high then [([c.toNat - '0'.toNat], rest)] else []
  | [] => []

def mark (m : Char) : Reader
  | c :: rest => if c = m then [([], rest)] else []
  | [] => []

def gap : Reader
  | c :: rest => if isBlank c then [([], rest.dropWhile isBlank)] else []
  | [] => []

def followedBy (first second : Reader) : Reader := fun text =>
  (first text).flatMap fun (values, rest) =>
    (second rest).map fun (more, rest) => (values ++ more, rest)

def sequence (readers : List Reader) : Reader :=
  readers.foldr followedBy fun text => [([], text)]

def oneOf (readers : List Reader) : Reader := fun text =>
  readers.flatMap fun reader => reader text

def number (digits : Reader) : Reader := fun text =>
  (digits text).map fun (values, rest) => ([values.foldl (fun n d => 10 * n + d) 0], rest)

def year : Reader :=
  number (sequence [anyDigit, anyDigit, anyDigit, anyDigit])

def month : Reader :=
  number (oneOf [followedBy (digitIn '1' '1') (digitIn '0' '2'),
    followedBy (digitIn '0' '0') (digitIn '1' '9'), digitIn '1' '9'])

/-- A day of the month from 1 to 31; a space may stand for the first digit. -/
def day : Reader :=
  number (oneOf [followedBy (digitIn '3' '3') (digitIn '0' '1'), followedBy (digitIn '1' '2') anyDigit,
    followedBy (digitIn '0' '0') (digitIn '1' '9'), digitIn '1' '9',
    followedBy (mark ' ') (digitIn '1' '9')])

def hour : Reader :=
  number (oneOf [followedBy (digitIn '2' '2') (digitIn '0' '3'), followedBy (digitIn '0' '1') anyDigit,
    anyDigit])

def minute : Reader :=
  number (oneOf [followedBy (digitIn '0' '5') anyDigit, anyDigit])

/-- A second from 0 to 61, leap seconds included. -/
def second : Reader :=
  number (oneOf [followedBy (digitIn '6' '6') (digitIn '0' '1'), followedBy (digitIn '0' '5') anyDigit,
    anyDigit])

/-- The six numbers of a stamp that has hyphens between those of the date. -/
def numbers : Reader :=
  sequence [year, mark '-', month, mark '-', day, gap, hour, mark ':', minute, mark ':', second]

/-- The text with its first `n` colons turned into hyphens. -/
def hyphenate : (n : Nat) → List Char → List Char
  | 0, text => text
  | _, [] => []
  | n + 1, c :: rest => if c = ':' then '-' :: hyphenate n rest else c :: hyphenate (n + 1) rest

def read (text : String) : Option DateTime :=
  match numbers (hyphenate 2 text.toList) with
  | ([year, month, day, hour, minute, second], []) :: _ => do
    let date ← Date.of? year month day
    let time ← TimeOfDay.of? hour minute second 0
    return ⟨date, time, some Offset.utc⟩
  | _ => none

end MediaCatalog.Calendar.CameraStamp
