/-!
# Numerals

Decimal numerals of natural numbers.  Writing uses no leading zeros.  Reading is lenient: one
leading plus sign and any number of leading zeros are allowed, nothing else is, and the value must
lie below a limit.  Ports, policy indexes and periods are read this way.
-/

namespace PgSteward.Text

/-- The value of a decimal digit. -/
def digit? (c : Char) : Option Nat :=
  if '0' ≤ c ∧ c ≤ '9' then some (c.toNat - 48) else none

/-- The value of a hexadecimal digit in either case. -/
def hexDigit? (c : Char) : Option Nat :=
  if '0' ≤ c ∧ c ≤ '9' then some (c.toNat - 48)
  else if 'a' ≤ c ∧ c ≤ 'f' then some (c.toNat - 87)
  else if 'A' ≤ c ∧ c ≤ 'F' then some (c.toNat - 55)
  else none

/-- The value of a run of decimal digits read after the value `seen`. -/
def digitsFrom? (seen : Nat) : List Char → Option Nat
  | [] => some seen
  | c :: cs => (digit? c).bind fun d => digitsFrom? (seen * 10 + d) cs

/-- A numeral without its leading plus sign. -/
def dropPlus : List Char → List Char
  | '+' :: cs => cs
  | cs => cs

/-- The value of a numeral of at least one digit. -/
def natural? (cs : List Char) : Option Nat :=
  match dropPlus cs with
  | [] => none
  | digits => digitsFrom? 0 digits

/-- The value of a numeral that lies below a limit. -/
def naturalBelow? (limit : Nat) (cs : List Char) : Option Nat :=
  (natural? cs).filter fun n => n < limit

/-- The digits of a number, without leading zeros. -/
def decimal (n : Nat) : List Char := Nat.toDigits 10 n

/-- The number of values of a word of 64 bits. -/
def wordLimit : Nat := 18446744073709551616

/-- The number of ports. -/
def portLimit : Nat := 65536

/-- A value that is read lies below the limit. -/
theorem naturalBelow?_lt {limit n : Nat} {cs : List Char} (h : naturalBelow? limit cs = some n) :
    n < limit := by
  have := (Option.filter_eq_some_iff.mp h).2
  simpa using this

example : naturalBelow? portLimit "+05432".toList = some 5432 := by decide

example : naturalBelow? portLimit "65536".toList = none := by decide

example : natural? "+".toList = none ∧ natural? "-0".toList = none ∧ natural? "".toList = none := by
  decide

end PgSteward.Text
