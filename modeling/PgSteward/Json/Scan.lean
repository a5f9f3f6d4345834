import PgSteward.Json.Fraction
import PgSteward.Text.Utf8

/-!
# Scanning JSON text

A scanner takes what it reads off the front of a text and leaves the rest.  It fails in one of two
ways here: the text ends too early, or it is no JSON.  The third fault, a value of the wrong shape,
is for the readers of a fixed structure.

A scanner that looks for a value starts at its first character, with no blank in front.
-/

namespace PgSteward.Json

/-- Why a text cannot be read. -/
inductive ReadFault where
  /-- The text ends too early. -/
  | endsEarly
  /-- The text is no JSON. -/
  | malformed
  /-- The text goes on as JSON of another shape. -/
  | wrongShape
deriving DecidableEq, Repr

/-- Takes a value off the front of a text. -/
abbrev Scanner (α : Type) := List Char → Except ReadFault (α × List Char)

/-- Whether a character may stand between two tokens. -/
def isSpace (c : Char) : Bool := c = ' ' || c = '\n' || c = '\t' || c = '\r'

/-- A text without the spaces at its start. -/
def skipSpace (cs : List Char) : List Char := cs.dropWhile isSpace

/-! ## Words -/

/-- Takes the rest of a fixed word. -/
def scanWord : (word : List Char) → Scanner Unit
  | [], cs => .ok ((), cs)
  | _ :: _, [] => .error .endsEarly
  | w :: ws, c :: cs => if w = c then scanWord ws cs else .error .malformed

/-! ## Texts -/

/-- The number written by four hexadecimal digits. -/
def hexCode? (a b c d : Char) : Option Nat := do
  let a ← Text.hexDigit? a
  let b ← Text.hexDigit? b
  let c ← Text.hexDigit? c
  let d ← Text.hexDigit? d
  some (a * 4096 + b * 256 + c * 16 + d)

/-- The character written by a letter after a backslash. -/
def letterEscape? (c : Char) : Option Char :=
  if c = '"' then some '"'
  else if c = '\\' then some '\\'
  else if c = '/' then some '/'
  else if c = 'b' then some '\x08'
  else if c = 'f' then some '\x0c'
  else if c = 'n' then some '\x0a'
  else if c = 'r' then some '\x0d'
  else if c = 't' then some '\x09'
  else none

/-- The fault of a number that is not written by four digits.  A text of fewer than four bytes
ends too early. -/
def shortEscape (cs : List Char) : ReadFault :=
  if (Text.toUtf8 cs).length < 4 then .endsEarly else .malformed

/-- Takes the number after a backslash and a `u`. -/
def scanCode : Scanner Nat
  | a :: b :: c :: d :: rest =>
      match hexCode? a b c d with
      | some n => .ok (n, rest)
      | none => .error .malformed
  | cs => .error (shortEscape cs)

/-- Whether a number is the first half of a pair. -/
def isLeadHalf (n : Nat) : Bool := 0xD800 ≤ n && n ≤ 0xDBFF

/-- Whether a number is the second half of a pair. -/
def isTailHalf (n : Nat) : Bool := 0xDC00 ≤ n && n ≤ 0xDFFF

/-- The character of two halves. -/
def joinHalves (lead tail : Nat) : Char :=
  Char.ofNat ((lead - 0xD800) * 1024 + (tail - 0xDC00) + 0x10000)

/-- Takes the second half of a pair, with its backslash and its `u`. -/
def scanTailHalf (lead : Nat) : Scanner Char := fun cs => do
  let ((), cs) ← scanWord ['\\', 'u'] cs
  let (n, rest) ← scanCode cs
  if isTailHalf n then return (joinHalves lead n, rest) else throw .malformed

/-- Takes the escape after a backslash. -/
def scanEscape : Scanner Char
  | [] => .error .endsEarly
  | c :: cs =>
      if c = 'u' then
        match scanCode cs with
        | .error e => .error e
        | .ok (n, rest) =>
            if isTailHalf n then .error .malformed
            else if isLeadHalf n then scanTailHalf n rest
            else .ok (Char.ofNat n, rest)
      else
        match letterEscape? c with
        | some d => .ok (d, cs)
        | none => .error .malformed

theorem scanWord_length {word cs rest : List Char} {u : Unit}
    (h : scanWord word cs = .ok (u, rest)) : rest.length ≤ cs.length := by
  induction word generalizing cs with
  | nil => cases h; exact Nat.le_refl _
  | cons w ws ih =>
      cases cs with
      | nil => cases h
      | cons c cs =>
          simp only [scanWord] at h
          split at h
          · exact Nat.le_succ_of_le (ih h)
          · cases h

theorem scanCode_length {cs rest : List Char} {n : Nat} (h : scanCode cs = .ok (n, rest)) :
    rest.length < cs.length := by
  unfold scanCode at h
  grind

theorem scanTailHalf_length {lead : Nat} {cs rest : List Char} {c : Char}
    (h : scanTailHalf lead cs = .ok (c, rest)) : rest.length < cs.length := by
  simp only [scanTailHalf, bind, Except.bind] at h
  split at h
  · cases h
  · rename_i hw
    have hw := scanWord_length hw
    split at h
    · cases h
    · rename_i hs
      have hs := scanCode_length hs
      split at h
      · simp only [pure, Except.pure, Except.ok.injEq, Prod.mk.injEq] at h
        obtain ⟨-, rfl⟩ := h
        exact Nat.lt_of_lt_of_le hs hw
      · cases h

theorem scanEscape_length {cs rest : List Char} {c : Char} (h : scanEscape cs = .ok (c, rest)) :
    rest.length < cs.length := by
  unfold scanEscape at h
  split at h
  · cases h
  · split at h
    · split at h
      · cases h
      · rename_i hs
        have hl := scanCode_length hs
        split at h
        · cases h
        · split at h
          · exact Nat.lt_succ_of_lt (Nat.lt_trans (scanTailHalf_length h) hl)
          · simp only [Except.ok.injEq, Prod.mk.injEq] at h
            obtain ⟨-, rfl⟩ := h
            exact Nat.lt_succ_of_lt hl
    · split at h
      · cases h
        exact Nat.lt_succ_self _
      · cases h

/-- Takes the characters of a text up to its closing quote. -/
def scanText : Scanner (List Char)
  | [] => .error .endsEarly
  | c :: cs =>
      if c = '"' then .ok ([], cs)
      else if c = '\\' then
        match h : scanEscape cs with
        | .error e => .error e
        | .ok (d, rest) =>
            have : rest.length < cs.length := scanEscape_length h
            match scanText rest with
            | .error e => .error e
            | .ok (ds, rest) => .ok (d :: ds, rest)
      else if c.toNat < 0x20 then .error .malformed
      else
        match scanText cs with
        | .error e => .error e
        | .ok (ds, rest) => .ok (c :: ds, rest)
termination_by cs => cs.length

/-! ## Numbers -/

/-- The digits at the start of a text, and the rest. -/
def spanDigits (cs : List Char) : List Char × List Char := cs.span fun c => (Text.digit? c).isSome

/-- The value of a run of digits. -/
def digitsValue (ds : List Char) : Nat := (Text.digitsFrom? 0 ds).getD 0

/-- Takes at least one digit. -/
def scanDigits (cs : List Char) : Except ReadFault (List Char × List Char) :=
  match spanDigits cs with
  | ([], []) => .error .endsEarly
  | ([], _ :: _) => .error .malformed
  | found => .ok found

/-- Takes the whole part of a number: one zero, or digits that do not start with one. -/
def scanWhole (cs : List Char) : Except ReadFault (List Char × List Char) :=
  match scanDigits cs with
  | .error e => .error e
  | .ok ('0' :: _ :: _, _) => .error .malformed
  | .ok found => .ok found

/-- Takes the digits after a point, if there is one. -/
def scanPlaces : Scanner (Option (List Char))
  | '.' :: cs =>
      match scanDigits cs with
      | .error e => .error e
      | .ok (ds, rest) => .ok (some ds, rest)
  | cs => .ok (none, cs)

/-- Takes a power of ten, if there is one. -/
def scanPower : Scanner (Option Int)
  | [] => .ok (none, [])
  | c :: cs =>
      if c = 'e' ∨ c = 'E' then
        let (minus, digits) :=
          match cs with
          | '+' :: ds => (false, ds)
          | '-' :: ds => (true, ds)
          | ds => (false, ds)
        match scanDigits digits with
        | .error e => .error e
        | .ok (ds, rest) =>
            let n := Int.ofNat (digitsValue ds)
            .ok (some (if minus then -n else n), rest)
      else .ok (none, c :: cs)

/-- The number of a sign, a whole part, places after the point and a power of ten.  A number
without the last two is an integer if it fits into 64 bits.  A number that is too large is none. -/
def assemble (negative : Bool) (whole : List Char) (places : Option (List Char))
    (power : Option Int) : Except ReadFault JsonNumber :=
  let n := digitsValue whole
  match places, power with
  | none, none =>
      if !negative && n < Text.wordLimit then .ok (.integer (Int.ofNat n))
      else if negative && 0 < n && n ≤ Text.wordLimit / 2 then .ok (.integer (-Int.ofNat n))
      else if isTooLarge n 0 then .error .malformed
      else .ok (.fraction negative n 0)
  | _, _ =>
      let tail := places.getD []
      let digits := digitsValue (whole ++ tail)
      let exponent := power.getD 0 - Int.ofNat tail.length
      if isTooLarge digits exponent then .error .malformed
      else .ok (.fraction negative digits exponent)

/-- Takes a number whose sign has been taken. -/
def scanUnsigned (negative : Bool) : Scanner JsonNumber := fun cs => do
  let (whole, cs) ← scanWhole cs
  let (places, cs) ← scanPlaces cs
  let (power, cs) ← scanPower cs
  let n ← assemble negative whole places power
  return (n, cs)

/-- Takes a number. -/
def scanNumber : Scanner JsonNumber
  | '-' :: cs => scanUnsigned true cs
  | cs => scanUnsigned false cs

example : scanNumber "-12.50e1,".toList
    = .ok (.fraction true 1250 (-1), [',']) := by rfl

example : scanNumber "01".toList = .error .malformed ∧
    scanNumber "1.".toList = .error .endsEarly := ⟨rfl, rfl⟩

end PgSteward.Json
