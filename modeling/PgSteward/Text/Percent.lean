import PgSteward.Text.Numeral

/-!
# Percent decoding

A byte may be written as a percent sign and two hexadecimal digits.  A percent sign that is not
followed by two such digits stands for itself, and a plus sign is never a blank.
-/

namespace PgSteward.Text

/-- The value of a byte that is a hexadecimal digit. -/
def hexByte? (b : UInt8) : Option Nat := hexDigit? (Char.ofNat b.toNat)

/-- The byte written by a percent sign and two digits. -/
def percentByte? (sign high low : UInt8) : Option UInt8 :=
  if sign = 0x25 then
    (hexByte? high).bind fun h => (hexByte? low).map fun l => UInt8.ofNat (h * 16 + l)
  else none

/-- The bytes that a percent encoded sequence of bytes stands for. -/
def percentDecode : List UInt8 → List UInt8
  | a :: b :: c :: rest =>
      match percentByte? a b c with
      | some byte => byte :: percentDecode rest
      | none => a :: percentDecode (b :: c :: rest)
  | rest => rest

example : percentDecode [0x25, 0x37, 0x42, 0x25, 0x2B] = [0x7B, 0x25, 0x2B] := by decide

end PgSteward.Text
