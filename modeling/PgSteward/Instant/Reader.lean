import PgSteward.Instant.Basic
import PgSteward.Text.Blank
import PgSteward.Text.Numeral
import PgSteward.Text.Utf8

/-!
# Reading instants

A date and time with its distance from universal time is read from a relaxed form of RFC 3339.
Blanks may stand between the parts, the letter `T` may be a blank, the distance may be `Z`, `UTC` or
a sign with hours and minutes, and a year of more than four digits has a sign.  Digits beyond the
ninth place of a second are dropped.

A text fails for the first fault from the left.  A part that is a number is checked against its
range as soon as it is read; the day is checked against its month at the end.
-/

namespace PgSteward.Instant

/-- Why a text is no instant. -/
inductive Fault where
  /-- The text ends too early. -/
  | tooShort
  /-- The text goes on after the instant. -/
  | tooLong
  /-- A character cannot stand where it does. -/
  | invalid
  /-- A part is not in its range. -/
  | outOfRange
  /-- Universal time has no such date. -/
  | impossible
deriving DecidableEq, Repr

/-- The text of a fault. -/
def Fault.message : Fault → String
  | .tooShort => "premature end of input"
  | .tooLong => "trailing input"
  | .invalid => "input contains invalid characters"
  | .outOfRange => "input is out of range"
  | .impossible => "no possible date and time matching input"

/-- Takes a part off the front of a text. -/
abbrev Taker (α : Type) := List Char → Except Fault (α × List Char)

/-- The greatest number that a part may have before its range is looked at. -/
def partLimit : Nat := 9223372036854775808

/-- Takes the digits of a number, `most` of them or all. -/
def takeDigits (most : Option Nat) (cs : List Char) : List Char × List Char :=
  let ds := cs.takeWhile fun c => (Text.digit? c).isSome
  let ds := match most with
    | some n => ds.take n
    | none => ds
  (ds, cs.drop ds.length)

/-- Takes a number of at least one digit. -/
def takeNumber (most : Option Nat) : Taker Nat := fun cs =>
  match cs with
  | [] => .error .tooShort
  | _ :: _ =>
      let (ds, rest) := takeDigits most cs
      if ds.isEmpty then .error .invalid
      else
        let n := (Text.digitsFrom? 0 ds).getD 0
        if n < partLimit then .ok (n, rest) else .error .outOfRange

/-- Takes a number of at most two digits after blanks, which must lie in a range. -/
def takePart (least most : Nat) : Taker Nat := fun cs => do
  let (n, rest) ← takeNumber (some 2) (Text.trimLeft cs)
  if least ≤ n ∧ n ≤ most then return (n, rest) else throw .outOfRange

/-- Takes a year after blanks: up to four digits, or any number of digits after a sign. -/
def takeYear : Taker Int := fun cs => do
  let (year, rest) ←
    match Text.trimLeft cs with
    | '-' :: ds => do
        let (n, rest) ← takeNumber none ds
        pure (-Int.ofNat n, rest)
    | '+' :: ds => do
        let (n, rest) ← takeNumber none ds
        pure (Int.ofNat n, rest)
    | ds => do
        let (n, rest) ← takeNumber (some 4) ds
        pure (Int.ofNat n, rest)
  if -2147483648 ≤ year ∧ year ≤ 2147483647 then return (year, rest) else throw .outOfRange

/-- Takes a mark after blanks. -/
def takeMark (mark : Char) (cs : List Char) : Except Fault (List Char) :=
  match Text.trimLeft cs with
  | [] => .error .tooShort
  | c :: rest => if c = mark then .ok rest else .error .invalid

/-- Takes the mark between the date and the time. -/
def takeMiddle : List Char → Except Fault (List Char)
  | [] => .error .tooShort
  | c :: rest => if c = 't' ∨ c = 'T' ∨ c = ' ' then .ok rest else .error .invalid

/-- Takes the places after a second, if there are any. -/
def takePlaces : Taker Nat
  | '.' :: cs => do
      let (ds, _) := takeDigits (some 9) cs
      let (n, rest) ← takeNumber (some 9) cs
      return (n * Nat.pow 10 (9 - ds.length), rest.dropWhile fun c => (Text.digit? c).isSome)
  | cs => .ok (0, cs)

/-- Takes the word `UTC` in any case. -/
def takeWord? : List Char → Option (List Char)
  | u :: t :: c :: rest =>
      if u.toUpper = 'U' ∧ t.toUpper = 'T' ∧ c.toUpper = 'C' then some rest else none
  | _ => none

/-- Takes two digits, the first at most `most`. -/
def takePair (most : Nat) : Taker Nat := fun cs =>
  if (Text.toUtf8 cs).length < 2 then .error .tooShort
  else
    match cs with
    | a :: b :: rest =>
        match Text.digit? a, Text.digit? b with
        | some x, some y => if x ≤ most then .ok (x * 10 + y, rest) else .error .outOfRange
        | _, _ => .error .invalid
    | _ => .error .invalid

/-- Takes a sign and the hours and minutes of a distance from universal time. -/
def takeSigned : Taker Int
  | [] => .error .tooShort
  | c :: cs => do
      let minus ←
        if c = '+' then pure false
        else if c = '-' ∨ c = '\u2212' then pure true
        else throw .invalid
      let (hours, cs) ← takePair 9 cs
      let (minutes, cs) ← takePair 5 (cs.dropWhile fun c => c = ':' || Text.isBlank c)
      let distance := Int.ofNat (hours * 60 + minutes)
      return (if minus then -distance else distance, cs)

/-- Takes the distance from universal time in minutes. -/
def takeDistance : Taker Int := fun cs =>
  match takeWord? cs with
  | some rest => .ok (0, rest)
  | none =>
      match cs with
      | 'Z' :: rest => .ok (0, rest)
      | 'z' :: rest => .ok (0, rest)
      | cs => takeSigned cs

/-- The least year of a date. -/
def leastYear : Int := -262143

/-- The greatest year of a date. -/
def greatestYear : Int := 262142

/-- Whether a year has dates. -/
def hasDates (year : Int) : Bool := leastYear ≤ year && year ≤ greatestYear

/-- The instant of a date and time of universal time. -/
def ofFields? (date : Int × Nat × Nat) (hour minute second nano : Nat) : Option Instant :=
  if hd : Calendar.IsDate date.1 date.2.1 date.2.2 then
    if ht : Calendar.IsTime hour minute second nano then
      some ⟨date.1, date.2.1, date.2.2, hour, minute, second, nano, hd, ht⟩
    else none
  else none

/-- The instant of a date and time at a distance of some minutes from universal time. -/
def ofLocal (date : Int × Nat × Nat) (hour minute second nano : Nat) (distance : Int) :
    Except Fault Instant :=
  let (year, month, day) := date
  if !hasDates year || !decide (Calendar.IsDate year month day) then .error .outOfRange
  else if distance ≤ -1440 ∨ 1440 ≤ distance then .error .outOfRange
  else
    let minutes := Int.ofNat (hour * 60 + minute) - distance
    let date :=
      if minutes < 0 then Calendar.dayBefore year month day
      else if 1440 ≤ minutes then Calendar.dayAfter year month day
      else (year, month, day)
    let minutes := (minutes % 1440).toNat
    if !hasDates date.1 then .error .impossible
    else
      match ofFields? date (minutes / 60) (minutes % 60) second nano with
      | some t => .ok t
      | none => .error .impossible

/-- The instant that a text stands for. -/
def read (cs : List Char) : Except Fault Instant := do
  let (year, cs) ← takeYear cs
  let cs ← takeMark '-' cs
  let (month, cs) ← takePart 1 12 cs
  let cs ← takeMark '-' cs
  let (day, cs) ← takePart 1 31 cs
  let cs ← takeMiddle cs
  let (hour, cs) ← takePart 0 23 cs
  let cs ← takeMark ':' cs
  let (minute, cs) ← takePart 0 59 cs
  let cs ← takeMark ':' cs
  let (second, cs) ← takePart 0 60 cs
  let (nano, cs) ← takePlaces cs
  let (distance, cs) ← takeDistance (Text.trimLeft cs)
  if (Text.trimLeft cs).isEmpty then ofLocal (year, month, day) hour minute second nano distance
  else throw .tooLong

/-- The instant that a text stands for. -/
def parse (s : String) : Except Fault Instant := read s.toList

end PgSteward.Instant
