/-!
# Instants

An instant is a point of universal time, given by its civil date and time of day to the nanosecond.
The fields are those of the Gregorian calendar, continued to all years, with a year zero.  Second 60
is the leap second that follows second 59.

The fields of an instant are in range by its type, so two instants are equal when their fields are,
and their order is the order of the fields from the year down.
-/

namespace PgSteward

namespace Calendar

/-- Whether a year has 366 days. -/
def isLeap (year : Int) : Bool := year % 4 = 0 && (year % 100 ≠ 0 || year % 400 = 0)

/-- The number of days of a month. -/
def daysIn (year : Int) (month : Nat) : Nat :=
  if month = 2 then if isLeap year then 29 else 28
  else if month = 4 ∨ month = 6 ∨ month = 9 ∨ month = 11 then 30
  else 31

/-- A date of the calendar. -/
structure IsDate (year : Int) (month day : Nat) : Prop where
  /-- The month is one of twelve. -/
  monthIn : 1 ≤ month ∧ month ≤ 12
  dayIn : 1 ≤ day ∧ day ≤ daysIn year month

instance (year : Int) (month day : Nat) : Decidable (IsDate year month day) :=
  decidable_of_iff ((1 ≤ month ∧ month ≤ 12) ∧ (1 ≤ day ∧ day ≤ daysIn year month))
    ⟨fun h => ⟨h.1, h.2⟩, fun h => ⟨h.monthIn, h.dayIn⟩⟩

/-- A time of day. -/
structure IsTime (hour minute second nano : Nat) : Prop where
  hourIn : hour < 24
  minuteIn : minute < 60
  /-- The second is one of 60, or a leap second. -/
  secondIn : second ≤ 60
  /-- The fraction is less than a second. -/
  nanoIn : nano < 1000000000

instance (hour minute second nano : Nat) : Decidable (IsTime hour minute second nano) :=
  decidable_of_iff (hour < 24 ∧ minute < 60 ∧ second ≤ 60 ∧ nano < 1000000000)
    ⟨fun h => ⟨h.1, h.2.1, h.2.2.1, h.2.2.2⟩, fun h => ⟨h.hourIn, h.minuteIn, h.secondIn, h.nanoIn⟩⟩

end Calendar

/-- A point of universal time. -/
structure Instant where
  year : Int
  month : Nat
  /-- The day of the month, from 1. -/
  day : Nat
  hour : Nat
  minute : Nat
  /-- The second, 60 for a leap second. -/
  second : Nat
  /-- The nanoseconds after the second. -/
  nano : Nat
  isDate : Calendar.IsDate year month day
  /-- The time is one of the day. -/
  isTime : Calendar.IsTime hour minute second nano
deriving DecidableEq

namespace Instant

/-- The order of two instants, field by field from the year down. -/
def compare (a b : Instant) : Ordering :=
  (Ord.compare a.year b.year).then <| (Ord.compare a.month b.month).then <|
  (Ord.compare a.day b.day).then <| (Ord.compare a.hour b.hour).then <|
  (Ord.compare a.minute b.minute).then <| (Ord.compare a.second b.second).then <|
  Ord.compare a.nano b.nano

/-- Whether the first instant is before the second. -/
def before (a b : Instant) : Bool := compare a b == .lt

end Instant

namespace Calendar

/-- The day after a date. -/
def dayAfter (year : Int) (month day : Nat) : Int × Nat × Nat :=
  if day < daysIn year month then (year, month, day + 1)
  else if month < 12 then (year, month + 1, 1)
  else (year + 1, 1, 1)

/-- The day before a date. -/
def dayBefore (year : Int) (month day : Nat) : Int × Nat × Nat :=
  if 1 < day then (year, month, day - 1)
  else if 1 < month then (year, month - 1, daysIn year (month - 1))
  else (year - 1, 12, 31)

example : dayAfter 2024 2 28 = (2024, 2, 29) ∧ dayAfter 2023 2 28 = (2023, 3, 1) := by decide

example : dayBefore 2024 1 1 = (2023, 12, 31) := by decide

end Calendar

end PgSteward
