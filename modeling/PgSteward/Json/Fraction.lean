import PgSteward.Json.Value
import PgSteward.Text.Numeral

/-!
# The text of a fraction

A fraction stands for the binary number of 64 bits that is nearest to it, the even one of two.  Its
text has the fewest digits from which that number is read back, and of those the nearest ones.  It
is positional while the point lies within the first sixteen digits or at most four zeros follow it,
with at least one digit after the point, and scientific otherwise.

All comparisons are exact, on quotients of natural numbers.
-/

namespace PgSteward

/-- A positive number as a quotient. -/
structure Quotient where
  /-- The numerator. -/
  num : Nat
  /-- The denominator. -/
  den : Nat
deriving Repr

namespace Quotient

/-- The number `digits * base ^ exponent`. -/
def scaled (digits base : Nat) : Int → Quotient
  | .ofNat e => ⟨digits * Nat.pow base e, 1⟩
  | .negSucc e => ⟨digits, Nat.pow base (e + 1)⟩

/-- Whether one number is less than another. -/
def less (a b : Quotient) : Bool := a.num * b.den < b.num * a.den

/-- The distance of two numbers. -/
def gap (a b : Quotient) : Quotient :=
  ⟨(a.num * b.den - b.num * a.den) + (b.num * a.den - a.num * b.den), a.den * b.den⟩

/-- The product with a power of a base. -/
def shift (a : Quotient) (base : Nat) : Int → Quotient
  | .ofNat e => ⟨a.num * Nat.pow base e, a.den⟩
  | .negSucc e => ⟨a.num, a.den * Nat.pow base (e + 1)⟩

/-- The nearest natural number, the even one of two. -/
def round (a : Quotient) : Nat :=
  let q := a.num / a.den
  let twice := 2 * (a.num % a.den)
  if twice < a.den then q else if twice = a.den then q + q % 2 else q + 1

end Quotient

/-- The number `mantissa * 2 ^ exponent`. -/
structure Binary where
  /-- The mantissa, of at most 53 bits. -/
  mantissa : Nat
  /-- The exponent, at least -1074. -/
  exponent : Int
deriving DecidableEq, Repr

namespace Binary

/-- The least exponent. -/
def leastExponent : Int := -1074

/-- The number above the greatest mantissa. -/
def mantissaLimit : Nat := 9007199254740992

/-- The least mantissa of 53 bits. -/
def leastFull : Nat := 4503599627370496

/-- The binary number nearest to a positive quotient. -/
def nearest (a : Quotient) : Binary :=
  let bits : Int := Int.ofNat a.num.log2 - Int.ofNat a.den.log2
  let low := max leastExponent (bits - 53)
  let m := (a.shift 2 (-low)).round
  if m < mantissaLimit then ⟨m, low⟩
  else
    let m := (a.shift 2 (-(low + 1))).round
    if m < mantissaLimit then ⟨m, low + 1⟩ else ⟨m / 2, low + 2⟩

/-- The value of a binary number. -/
def value (b : Binary) : Quotient := Quotient.scaled b.mantissa 2 b.exponent

/-- The middle between a binary number and the next greater one. -/
def upperEdge (b : Binary) : Quotient := Quotient.scaled (2 * b.mantissa + 1) 2 (b.exponent - 1)

/-- The middle between a binary number and the next smaller one. -/
def lowerEdge (b : Binary) : Quotient :=
  if b.mantissa = leastFull ∧ leastExponent < b.exponent then
    Quotient.scaled (4 * b.mantissa - 1) 2 (b.exponent - 2)
  else Quotient.scaled (2 * b.mantissa - 1) 2 (b.exponent - 1)

/-- Whether a number is read as the binary number. -/
def reads (b : Binary) (a : Quotient) : Bool :=
  if b.mantissa % 2 = 0 then !a.less b.lowerEdge && !b.upperEdge.less a
  else b.lowerEdge.less a && a.less b.upperEdge

/-- The multiple of `10 ^ exponent` that is read as the number, the nearest of those. -/
def onGrid? (b : Binary) (exponent : Int) : Option Nat :=
  let below := let a := b.value.shift 10 (-exponent); a.num / a.den
  let point (n : Nat) := Quotient.scaled n 10 exponent
  let hits := [below, below + 1].filter fun n => 0 < n && b.reads (point n)
  match hits with
  | [n, k] =>
      if ((point k).gap b.value).less ((point n).gap b.value) then some k
      else if ((point n).gap b.value).less ((point k).gap b.value) then some n
      else some (if n % 2 = 0 then n else k)
  | [n] => some n
  | _ => none

/-- The digits and the exponent of the coarsest grid that has a hit, from an exponent downward. -/
def shortestFrom (b : Binary) (exponent : Int) : Nat → Nat × Int
  | 0 => (0, 0)
  | fuel + 1 =>
      match onGrid? b exponent with
      | some n => (n, exponent)
      | none => shortestFrom b (exponent - 1) fuel

/-- The fewest digits that are read as the number, with the exponent of the last. -/
def shortest (b : Binary) : Nat × Int :=
  let a := b.value
  let top : Int := (Int.ofNat a.num.log2 - Int.ofNat a.den.log2) * 30103 / 100000 + 2
  shortestFrom b top 40

end Binary

/-- Whether a positive fraction is too large for a binary number of 64 bits. -/
def isTooLarge (digits : Nat) (exponent : Int) : Bool :=
  let places := Int.ofNat (Text.decimal digits).length + exponent
  if digits = 0 ∨ places < 309 then false
  else if 310 < places then true
  else !(Quotient.scaled digits 10 exponent).less
    (Quotient.scaled (2 * Binary.mantissaLimit - 1) 2 970)

/-- Digits with a point after the first, and no point after a single digit. -/
def pointed : List Char → List Char
  | [] => []
  | [d] => [d]
  | d :: ds => d :: '.' :: ds

/-- The text of `digits * 10 ^ exponent`, where the last digit is not zero. -/
def layFraction (digits : List Char) (exponent : Int) : List Char :=
  let places := Int.ofNat digits.length + exponent
  let zeros (n : Nat) := List.replicate n '0'
  if 0 ≤ exponent ∧ places ≤ 16 then digits ++ zeros exponent.toNat ++ ['.', '0']
  else if 0 < places ∧ places ≤ 16 then
    digits.take places.toNat ++ '.' :: digits.drop places.toNat
  else if -5 < places ∧ places ≤ 0 then ['0', '.'] ++ zeros (-places).toNat ++ digits
  else
    let power := places - 1
    pointed digits ++ 'e' :: (if power < 0 then ['-'] else []) ++ Text.decimal power.natAbs

/-- A run of digits without the zeros at its end, with their number. -/
def stripZeros (digits : List Char) : List Char × Nat :=
  let kept := (digits.reverse.dropWhile (· == '0')).reverse
  (kept, digits.length - kept.length)

/-- The text of a fraction. -/
def fractionText (negative : Bool) (digits : Nat) (exponent : Int) : String :=
  let sign := if negative then ['-'] else []
  if digits = 0 ∨ Int.ofNat (Text.decimal digits).length + exponent < -330 then
    String.ofList (sign ++ ['0', '.', '0'])
  else
    let b := Binary.nearest (Quotient.scaled digits 10 exponent)
    if b.mantissa = 0 then String.ofList (sign ++ ['0', '.', '0'])
    else
      let (n, e) := b.shortest
      let (kept, dropped) := stripZeros (Text.decimal n)
      String.ofList (sign ++ layFraction kept (e + Int.ofNat dropped))

/-- The text of a number. -/
def JsonNumber.render : JsonNumber → String
  | .integer n => toString n
  | .fraction negative digits exponent => fractionText negative digits exponent

example : fractionText false 15 (-1) = "1.5" := by decide +kernel

end PgSteward
