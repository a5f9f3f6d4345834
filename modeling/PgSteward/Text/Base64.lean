/-!
# Base 64

The canonical encoding of bytes by 64 characters: four characters for three bytes, padded with
equals signs, with the unused bits of the last group zero.  Reading takes nothing else.
-/

namespace PgSteward.Text

/-- The value of one of the 64 characters. -/
def sextet? (c : Char) : Option Nat :=
  if 'A' ≤ c ∧ c ≤ 'Z' then some (c.toNat - 65)
  else if 'a' ≤ c ∧ c ≤ 'z' then some (c.toNat - 71)
  else if '0' ≤ c ∧ c ≤ '9' then some (c.toNat + 4)
  else if c = '+' then some 62
  else if c = '/' then some 63
  else none

/-- The bytes of the last group, which may be padded. -/
def lastGroup? (a b c d : Char) : Option (List UInt8) := do
  let w ← sextet? a
  let x ← sextet? b
  if c = '=' then
    if d = '=' ∧ x % 16 = 0 then some [UInt8.ofNat (w * 4 + x / 16)] else none
  else
    let y ← sextet? c
    if d = '=' then
      if y % 4 = 0 then
        some [UInt8.ofNat (w * 4 + x / 16), UInt8.ofNat (x % 16 * 16 + y / 4)]
      else none
    else
      let z ← sextet? d
      some [UInt8.ofNat (w * 4 + x / 16), UInt8.ofNat (x % 16 * 16 + y / 4),
        UInt8.ofNat (y % 4 * 64 + z)]

/-- The three bytes of a full group. -/
def fullGroup? (a b c d : Char) : Option (List UInt8) :=
  if d = '=' then none else lastGroup? a b c d

/-- The bytes that a text in base 64 stands for. -/
def base64Decode? : List Char → Option (List UInt8)
  | [] => some []
  | [a, b, c, d] => lastGroup? a b c d
  | a :: b :: c :: d :: rest => do
      let bytes ← fullGroup? a b c d
      let more ← base64Decode? rest
      some (bytes ++ more)
  | _ => none

example : base64Decode? "czNjcmV0".toList = some [0x73, 0x33, 0x63, 0x72, 0x65, 0x74] := by decide

example : base64Decode? "cHc=".toList = some [0x70, 0x77] ∧ base64Decode? "cHd=".toList = none := by
  decide

end PgSteward.Text
