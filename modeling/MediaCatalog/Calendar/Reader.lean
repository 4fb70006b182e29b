import MediaCatalog.Calendar.DateTime
import MediaCatalog.Text.Numeral

/-!
Reading date-times of the ISO 8601 family: calendar dates and week dates, basic and extended, any one
character between date and time, a fraction after any field of the time, and an offset.

The reader is lenient before the sign of an offset: one ASCII character may stand there that belongs to no field,
and after six digits of a fraction any text.
-/

namespace MediaCatalog.Calendar.Reader

open MediaCatalog.Text

/-- A day after `YYYY-Www`. A hyphen belongs to the date and a day of the week follows it, unless two
digits come after the hyphen: these are an hour. -/
def readExtendedWeekday (year week : Nat) : List Char → Option (Date × List Char)
  | ['-'] => none
  | '-' :: day :: rest =>
    if (rest.head?.bind asciiDigit?).isSome then
      (Date.ofWeek? year week 1).map (·, '-' :: day :: rest)
    else do
      let weekday ← asciiDigit? day
      let date ← Date.ofWeek? year week weekday
      return (date, rest)
  | rest => (Date.ofWeek? year week 1).map (·, rest)

/-- A day after `YYYYWww`. The digits of a time come in pairs, so the number of digits up to the next
other character tells whether the first one is a day of the week or a separator. -/
def readBasicWeekday (year week : Nat) (text : List Char) : Option (Date × List Char) :=
  let digits := (text.takeWhile fun c => (asciiDigit? c).isSome).length
  if digits = 1 ∨ (digits % 2 = 0 ∧ digits ≠ 0) then do
    let (weekday, rest) ← readNumeral 1 text
    let date ← Date.ofWeek? year week weekday
    return (date, rest)
  else (Date.ofWeek? year week 1).map (·, text)

def readDate (text : List Char) : Option (Date × List Char) := do
  let (year, rest) ← readNumeral 4 text
  match rest with
  | '-' :: 'W' :: rest =>
    let (week, rest) ← readNumeral 2 rest
    readExtendedWeekday year week rest
  | 'W' :: rest =>
    let (week, rest) ← readNumeral 2 rest
    readBasicWeekday year week rest
  | '-' :: rest =>
    let (month, rest) ← readNumeral 2 rest
    match rest with
    | '-' :: rest =>
      let (day, rest) ← readNumeral 2 rest
      let date ← Date.of? year month day
      return (date, rest)
    | _ => none
  | rest =>
    let (month, rest) ← readNumeral 2 rest
    let (day, rest) ← readNumeral 2 rest
    let date ← Date.of? year month day
    return (date, rest)

/-- The fields of a clock as they are read, before it is known whether a day has such a time. -/
structure ClockFields where
  hour : Nat
  minute : Nat := 0
  second : Nat := 0
  microsecond : Nat := 0

namespace ClockFields

def ticks (fields : ClockFields) : Nat :=
  ((fields.hour * 60 + fields.minute) * 60 + fields.second) * 1000000 + fields.microsecond

end ClockFields

/-- A clock and whether something that belongs to no field was left behind it. -/
abbrev ClockRead := ClockFields × Bool

inductive Continuation where
  | done (leftover : Bool)
  | field (text : List Char)
  | fraction (text : List Char)
  | malformed

/-- Decides what comes after a field. `colons` says that the fields are separated by colons, `isLast` that
nothing follows the clock. A single ASCII character is left over; a null character counts as the end. -/
def continuation (colons isLast : Bool) : List Char → Continuation
  | [] => .done (!isLast)
  | [c] => if c.toNat < 0x80 then .done (c != '\x00') else .malformed
  | c :: rest =>
    if colons && c = ':' then .field rest
    else if c = '.' || c = ',' then .fraction rest
    else if colons then .malformed
    else .field (c :: rest)

/-- Reads the digits of a fraction into microseconds; digits after the sixth are dropped. -/
def readFraction (isLast : Bool) (text : List Char) : Option (Nat × Bool) := do
  let width := min 6 text.length
  let (value, rest) ← readNumeral width text
  let leftover :=
    match rest.dropWhile fun c => (asciiDigit? c).isSome with
    | [] => !isLast
    | c :: _ => c != '\x00'
  return (value * Nat.pow 10 (6 - width), leftover)

def withFraction (isLast : Bool) (fields : ClockFields) (text : List Char) : Option ClockRead :=
  (readFraction isLast text).map fun (microsecond, leftover) =>
    ({ fields with microsecond := microsecond }, leftover)

def readSeconds (colons isLast : Bool) (hour minute : Nat) (text : List Char) : Option ClockRead := do
  let (second, rest) ← readNumeral 2 text
  let fields := { hour, minute, second }
  match continuation colons isLast rest with
  | .done leftover => some (fields, leftover)
  | .field text => withFraction isLast fields text
  | .fraction text => withFraction isLast fields text
  | .malformed => none

def readMinutes (colons isLast : Bool) (hour : Nat) (text : List Char) : Option ClockRead := do
  let (minute, rest) ← readNumeral 2 text
  match continuation colons isLast rest with
  | .done leftover => some ({ hour, minute }, leftover)
  | .field text => readSeconds colons isLast hour minute text
  | .fraction text => withFraction isLast { hour, minute } text
  | .malformed => none

/-- Reads a clock: hours, and then minutes, seconds and a fraction if they are there. The fields are
separated by colons if the first is followed by one. -/
def readClock (isLast : Bool) (text : List Char) : Option ClockRead := do
  let (hour, rest) ← readNumeral 2 text
  let colons := rest.head? == some ':'
  match continuation colons isLast rest with
  | .done leftover => some ({ hour }, leftover)
  | .field text => readMinutes colons isLast hour text
  | .fraction text => withFraction isLast { hour } text
  | .malformed => none

def startsOffset (c : Char) : Bool :=
  c = '+' || c = '-' || c = 'Z'

/-- The offset of a clock that is `sign` times the fields ahead. One of less than a second is none at all. -/
def offsetOf? (sign : Int) (fields : ClockFields) : Option Offset :=
  if fields.ticks < 1000000 then some Offset.utc else Offset.of? (sign * fields.ticks)

def readOffset : List Char → Option Offset
  | 'Z' :: rest => if rest.head?.all (· == '\x00') then some Offset.utc else none
  | sign :: rest =>
    match readClock true rest with
    | some (fields, false) => offsetOf? (if sign = '-' then -1 else 1) fields
    | _ => none
  | [] => none

def readTime (text : List Char) : Option (TimeOfDay × Option Offset) := do
  let clock := text.takeWhile fun c => !startsOffset c
  let zone := text.dropWhile fun c => !startsOffset c
  let (fields, leftover) ← readClock zone.isEmpty clock
  let time ← TimeOfDay.of? fields.hour fields.minute fields.second fields.microsecond
  if zone.isEmpty then
    if leftover then none else some (time, none)
  else
    let offset ← readOffset zone
    return (time, some offset)

def readAfterDate (date : Date) : List Char → Option DateTime
  | [] => some ⟨date, TimeOfDay.midnight, none⟩
  | _ :: rest => (readTime rest).map fun (time, offset) => ⟨date, time, offset⟩

end Reader

namespace DateTime

open Reader

def ofChars? (text : List Char) : Option DateTime := do
  let (date, rest) ← readDate text
  readAfterDate date rest

def ofString? (text : String) : Option DateTime :=
  ofChars? text.toList

end DateTime

end MediaCatalog.Calendar
