import MediaCatalog.Calendar.Date

/-!
Date-times: a day, a time of that day in microseconds, and the distance of the clock from universal time,
if that is known. A clock of unknown distance is taken to show universal time.
-/

namespace MediaCatalog.Calendar

structure TimeOfDay where
  hour : Nat
  minute : Nat
  second : Nat
  microsecond : Nat
  hour_lt : hour < 24
  minute_lt : minute < 60
  second_lt : second < 60
  microsecond_lt : microsecond < 1000000
deriving DecidableEq

namespace TimeOfDay

def of? (hour minute second microsecond : Nat) : Option TimeOfDay :=
  if h : hour < 24 ∧ minute < 60 ∧ second < 60 ∧ microsecond < 1000000 then
    some ⟨hour, minute, second, microsecond, h.1, h.2.1, h.2.2.1, h.2.2.2⟩
  else none

def midnight : TimeOfDay :=
  ⟨0, 0, 0, 0, by decide, by decide, by decide, by decide⟩

def ticks (time : TimeOfDay) : Nat :=
  ((time.hour * 60 + time.minute) * 60 + time.second) * 1000000 + time.microsecond

/-- The time `n` microseconds after midnight; whole days are left out of account. -/
def ofTicks (n : Nat) : TimeOfDay where
  hour := n / 3600000000 % 24
  minute := n / 60000000 % 60
  second := n / 1000000 % 60
  microsecond := n % 1000000
  hour_lt := by omega
  minute_lt := by omega
  second_lt := by omega
  microsecond_lt := by omega

end TimeOfDay

def ticksPerDay : Nat :=
  86400000000

/-- How far a clock is ahead of universal time, in microseconds; always less than a day. -/
structure Offset where
  ticks : Int
  natAbs_lt : ticks.natAbs < ticksPerDay
deriving DecidableEq

namespace Offset

def utc : Offset :=
  ⟨0, by decide⟩

def of? (ticks : Int) : Option Offset :=
  if h : ticks.natAbs < ticksPerDay then some ⟨ticks, h⟩ else none

end Offset

/-- A day and a time, on a clock whose offset may be unknown. -/
structure DateTime where
  date : Date
  time : TimeOfDay
  offset : Option Offset
deriving DecidableEq

namespace DateTime

def clockTicks (date : Date) (time : TimeOfDay) : Nat :=
  date.dayNumber * ticksPerDay + time.ticks

/-- The point in time, in microseconds since the beginning of year 1 in universal time. -/
def instant (moment : DateTime) : Int :=
  (clockTicks moment.date moment.time : Int) - (moment.offset.map Offset.ticks).getD 0

def ofInstant? (ticks : Int) : Option DateTime :=
  match ticks with
  | .ofNat n =>
    (Date.ofDayNumber? (n / ticksPerDay)).map fun date =>
      ⟨date, TimeOfDay.ofTicks (n % ticksPerDay), some Offset.utc⟩
  | .negSucc _ => none

/-- The same point in time on a clock of universal time, if that shows a year from 1 to 9999. -/
def toUtc? (moment : DateTime) : Option DateTime :=
  ofInstant? moment.instant

def assumeUtc (moment : DateTime) : DateTime :=
  { moment with offset := some (moment.offset.getD Offset.utc) }

end DateTime

end MediaCatalog.Calendar
