import MediaCatalog.Calendar.DateTime
import MediaCatalog.Text.Numeral

/-!
The written form of a date-time: `YYYY-MM-DDTHH:MM:SS`, a fraction of six digits if the second is not
whole, and the offset if it is known.
-/

namespace MediaCatalog.Calendar

open MediaCatalog.Text

def Date.written (date : Date) : List Char :=
  decimal 4 date.year ++ '-' :: decimal 2 date.month ++ '-' :: decimal 2 date.day

/-- A point and six digits, or nothing for a whole second. -/
def writtenFraction (microsecond : Nat) : List Char :=
  if microsecond = 0 then [] else '.' :: decimal 6 microsecond

/-- `HH:MM:SS`, with a fraction if need be. -/
def TimeOfDay.written (time : TimeOfDay) : List Char :=
  decimal 2 time.hour ++ ':' :: decimal 2 time.minute ++ ':' :: decimal 2 time.second ++
    writtenFraction time.microsecond

/-- A sign and `HH:MM`; seconds and their fraction only if they are not zero. -/
def Offset.written (offset : Offset) : List Char :=
  let ticks := offset.ticks.natAbs
  let seconds := ticks / 1000000 % 60
  let fraction := ticks % 1000000
  (if offset.ticks < 0 then '-' else '+') ::
    decimal 2 (ticks / 3600000000) ++ ':' :: decimal 2 (ticks / 60000000 % 60) ++
    (if seconds = 0 ∧ fraction = 0 then [] else ':' :: decimal 2 seconds ++ writtenFraction fraction)

namespace DateTime

def writtenChars (moment : DateTime) : List Char :=
  moment.date.written ++ 'T' :: moment.time.written ++ (moment.offset.map Offset.written).getD []

def written (moment : DateTime) : String :=
  String.ofList moment.writtenChars

end DateTime

end MediaCatalog.Calendar
