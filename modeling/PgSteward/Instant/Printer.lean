import PgSteward.Instant.Basic
import PgSteward.Text.Numeral

/-!
# The text of an instant

The text of an instant is that of RFC 3339 in universal time, with the fewest of zero, three, six
and nine places after the second that are exact.  A year of more than four digits or below zero has
a sign.
-/

namespace PgSteward.Instant

/-- A number with zeros in front up to a width. -/
def padded (width n : Nat) : List Char :=
  let ds := Text.decimal n
  List.replicate (width - ds.length) '0' ++ ds

/-- The text of a year. -/
def yearText (year : Int) : List Char :=
  if year < 0 then '-' :: padded 4 year.natAbs
  else if year ≤ 9999 then padded 4 year.natAbs
  else '+' :: padded 4 year.natAbs

/-- The text of the places after the second. -/
def placesText (nano : Nat) : List Char :=
  if nano = 0 then []
  else if nano % 1000000 = 0 then '.' :: padded 3 (nano / 1000000)
  else if nano % 1000 = 0 then '.' :: padded 6 (nano / 1000)
  else '.' :: padded 9 nano

/-- The characters of the text of an instant. -/
def print (t : Instant) : List Char :=
  yearText t.year ++ '-' :: padded 2 t.month ++ '-' :: padded 2 t.day ++ 'T' :: padded 2 t.hour ++
    ':' :: padded 2 t.minute ++ ':' :: padded 2 t.second ++ placesText t.nano ++ ['Z']

/-- The text of an instant. -/
def render (t : Instant) : String := String.ofList t.print

end PgSteward.Instant
