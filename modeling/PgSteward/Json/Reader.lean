import PgSteward.Json.Scan

/-!
# Reading JSON text

Two loops carry all reading: `scanItems` takes the items of a list and `scanMembers` the members of
an object, each with the scanner of the part as an argument.  With them a text is read in three
ways.

* `Json.parse` gives any value.  Lists and objects nest less than `depthLimit` deep.
* `skipValue` passes over a value, at any depth and of any size.
* `textValue`, `listValue`, `objectBody` and `structureValue` take a value of a type that is known,
  and `mistyped` says what is wrong with another.

The counter of a loop is the length of the text, which every turn makes shorter, so it never runs
out.
-/

namespace PgSteward.Json

/-! ## Lists and objects -/

/-- Moves to the next item of a list, or past its end.  `first` says that no item has been taken. -/
def nextItem (first : Bool) (cs : List Char) : Except ReadFault (Bool × List Char) :=
  match skipSpace cs with
  | [] => .error .endsEarly
  | c :: cs =>
      if c = ']' then .ok (false, cs)
      else if first then .ok (true, c :: cs)
      else if c = ',' then
        match skipSpace cs with
        | [] => .error .endsEarly
        | d :: ds => if d = ']' then .error .malformed else .ok (true, d :: ds)
      else .error .malformed

/-- Takes the items of a list after its opening bracket. -/
def scanItems {α : Type} (item : Scanner α) : Nat → Bool → Scanner (List α)
  | 0, _, _ => .error .malformed
  | turns + 1, first, cs => do
      let (more, cs) ← nextItem first cs
      if more then
        let (a, cs) ← item cs
        let (as, cs) ← scanItems item turns false cs
        return (a :: as, cs)
      else return ([], cs)

/-- Moves to the name of the next member of an object, past its quote, or past the end. -/
def nextMember (first : Bool) (cs : List Char) : Except ReadFault (Bool × List Char) :=
  match skipSpace cs with
  | [] => .error .endsEarly
  | c :: cs =>
      if c = '\x7d' then .ok (false, cs)
      else if first then if c = '"' then .ok (true, cs) else .error .malformed
      else if c = ',' then
        match skipSpace cs with
        | [] => .error .endsEarly
        | d :: ds => if d = '"' then .ok (true, ds) else .error .malformed
      else .error .malformed

/-- Takes the colon after the name of a member. -/
def scanColon (cs : List Char) : Except ReadFault (List Char) :=
  match skipSpace cs with
  | [] => .error .endsEarly
  | c :: cs => if c = ':' then .ok (skipSpace cs) else .error .malformed

/-- Takes the members of an object after its opening brace.  `name` takes the rest of a name,
`check` may refuse it, and `step` takes the value of a member. -/
def scanMembers {ν σ : Type} (name : Scanner ν) (check : ν → σ → Except ReadFault Unit)
    (step : ν → σ → Scanner σ) : Nat → Bool → σ → Scanner σ
  | 0, _, _, _ => .error .malformed
  | turns + 1, first, seen, cs => do
      let (more, cs) ← nextMember first cs
      if more then
        let (n, cs) ← name cs
        check n seen
        let cs ← scanColon cs
        let (seen, cs) ← step n seen cs
        scanMembers name check step turns false seen cs
      else return (seen, cs)

/-- A check that refuses no name. -/
def anyName {ν σ : Type} : ν → σ → Except ReadFault Unit := fun _ _ => .ok ()

/-! ## Any value -/

/-- One more than the greatest depth of a value. -/
def depthLimit : Nat := 128

/-- Takes a value whose depth is less than the counter. -/
def scanValue : Nat → Scanner Json
  | 0 => fun _ => .error .malformed
  | depth + 1 => fun cs =>
      match skipSpace cs with
      | [] => .error .endsEarly
      | c :: cs =>
          if c = '"' then do
            let (s, cs) ← scanText cs
            return (.text (String.ofList s), cs)
          else if c = '[' then
            if depth = 0 then .error .malformed
            else do
              let (items, cs) ← scanItems (scanValue depth) (cs.length + 1) true cs
              return (.list items, cs)
          else if c = '\x7b' then
            if depth = 0 then .error .malformed
            else do
              let step := fun (name : List Char) (seen : JsonMembers) (cs : List Char) => do
                let (j, cs) ← scanValue depth cs
                return (seen.putOrdered (String.ofList name) j, cs)
              let (members, cs) ← scanMembers scanText anyName step (cs.length + 1) true [] cs
              return (.object members, cs)
          else if c = 'n' then do
            let ((), cs) ← scanWord ['u', 'l', 'l'] cs
            return (.null, cs)
          else if c = 't' then do
            let ((), cs) ← scanWord ['r', 'u', 'e'] cs
            return (.bool true, cs)
          else if c = 'f' then do
            let ((), cs) ← scanWord ['a', 'l', 's', 'e'] cs
            return (.bool false, cs)
          else if c = '-' ∨ (Text.digit? c).isSome then do
            let (n, cs) ← scanNumber (c :: cs)
            return (.number n, cs)
          else .error .malformed

/-- Nothing but spaces may follow a value. -/
def endOfText (cs : List Char) : Except ReadFault Unit :=
  if (skipSpace cs).isEmpty then .ok () else .error .malformed

/-- The value that a text is. -/
def parse (s : String) : Except ReadFault Json := do
  let (j, rest) ← scanValue depthLimit s.toList
  endOfText rest
  return j

/-! ## Passing over a value -/

/-- Passes over the escape after a backslash. -/
def skipEscape : Scanner Unit
  | [] => .error .endsEarly
  | c :: cs =>
      if c = 'u' then do
        let (_, cs) ← scanCode cs
        return ((), cs)
      else
        match letterEscape? c with
        | some _ => .ok ((), cs)
        | none => .error .malformed

theorem skipEscape_length {cs rest : List Char} {u : Unit} (h : skipEscape cs = .ok (u, rest)) :
    rest.length < cs.length := by
  unfold skipEscape at h
  split at h
  · cases h
  · split at h
    · simp only [bind, Except.bind] at h
      split at h
      · cases h
      · rename_i hs
        have hl := scanCode_length hs
        cases h
        exact Nat.lt_succ_of_lt hl
    · split at h
      · cases h
        exact Nat.lt_succ_self _
      · cases h

/-- Passes over a text up to its closing quote, whatever its escapes stand for. -/
def skipText : Scanner Unit
  | [] => .error .endsEarly
  | c :: cs =>
      if c = '"' then .ok ((), cs)
      else if c = '\\' then
        match h : skipEscape cs with
        | .error e => .error e
        | .ok ((), rest) =>
            have : rest.length < cs.length := skipEscape_length h
            skipText rest
      else if c.toNat < 0x20 then .error .malformed
      else skipText cs
termination_by cs => cs.length

/-- Passes over the digits at the start of a text. -/
def skipDigits (cs : List Char) : List Char := (spanDigits cs).2

/-- Passes over a power of ten, if there is one. -/
def skipPower : List Char → Except ReadFault (List Char)
  | [] => .ok []
  | c :: cs =>
      if c = 'e' ∨ c = 'E' then
        let digits :=
          match cs with
          | '+' :: ds => ds
          | '-' :: ds => ds
          | ds => ds
        if (spanDigits digits).1.isEmpty then .error .malformed else .ok (skipDigits digits)
      else .ok (c :: cs)

/-- Passes over a number whose sign has been taken, of any size.  One that breaks off is no
number. -/
def skipUnsigned (cs : List Char) : Except ReadFault (List Char) :=
  match spanDigits cs with
  | ([], _) => .error .malformed
  | ('0' :: _ :: _, _) => .error .malformed
  | (_, '.' :: rest) =>
      if (spanDigits rest).1.isEmpty then .error .malformed else skipPower (skipDigits rest)
  | (_, rest) => skipPower rest

/-- Passes over a value whose depth is less than the counter. -/
def skipWithin : Nat → Scanner Unit
  | 0 => fun _ => .error .malformed
  | depth + 1 => fun cs =>
      match skipSpace cs with
      | [] => .error .endsEarly
      | c :: cs =>
          if c = '"' then skipText cs
          else if c = '[' then do
            let (_, cs) ← scanItems (skipWithin depth) (cs.length + 1) true cs
            return ((), cs)
          else if c = '\x7b' then
            scanMembers skipText anyName (fun _ _ => skipWithin depth) (cs.length + 1) true () cs
          else if c = 'n' then scanWord ['u', 'l', 'l'] cs
          else if c = 't' then scanWord ['r', 'u', 'e'] cs
          else if c = 'f' then scanWord ['a', 'l', 's', 'e'] cs
          else if c = '-' then do
            let cs ← skipUnsigned cs
            return ((), cs)
          else if (Text.digit? c).isSome then do
            let cs ← skipUnsigned (c :: cs)
            return ((), cs)
          else .error .malformed

/-- Passes over a value. -/
def skipValue : Scanner Unit := fun cs => skipWithin (cs.length + 1) cs

/-! ## Values of a known type -/

/-- What is wrong with a value that is not of the type looked for: its own fault, if it has one at
its start, and else its shape. -/
def mistyped : List Char → ReadFault
  | [] => .endsEarly
  | c :: cs =>
      let faultOf {α : Type} (r : Except ReadFault α) : ReadFault :=
        match r with
        | .error e => e
        | .ok _ => .wrongShape
      if c = '"' then faultOf (scanText cs)
      else if c = '[' ∨ c = '\x7b' then .wrongShape
      else if c = 'n' then faultOf (scanWord ['u', 'l', 'l'] cs)
      else if c = 't' then faultOf (scanWord ['r', 'u', 'e'] cs)
      else if c = 'f' then faultOf (scanWord ['a', 'l', 's', 'e'] cs)
      else if c = '-' ∨ (Text.digit? c).isSome then faultOf (scanNumber (c :: cs))
      else .malformed

/-- Takes a value that starts with a character, and fails on another. -/
def opened {α : Type} (start : Char) (body : Scanner α) : Scanner α := fun cs =>
  match skipSpace cs with
  | [] => .error .endsEarly
  | c :: cs => if c = start then body cs else .error (mistyped (c :: cs))

/-- Takes a text. -/
def textValue : Scanner String :=
  opened '"' fun cs => do
    let (s, cs) ← scanText cs
    return (String.ofList s, cs)

/-- Takes a list of items. -/
def listValue {α : Type} (item : Scanner α) : Scanner (List α) :=
  opened '[' fun cs => scanItems item (cs.length + 1) true cs

/-- Takes an object whose members are folded into a value. -/
def objectBody {σ : Type} (check : String → σ → Except ReadFault Unit)
    (step : String → σ → Scanner σ) (none : σ) : Scanner σ := fun cs =>
  scanMembers (fun cs => (scanText cs).map fun found => (String.ofList found.1, found.2)) check step
    (cs.length + 1) true none cs

/-- Takes a structure, whose members stand by their names in an object or by their places in a
list. -/
def structureValue {α : Type} (byName byPlace : Scanner α) : Scanner α := fun cs =>
  match skipSpace cs with
  | [] => .error .endsEarly
  | c :: cs =>
      if c = '\x7b' then byName cs
      else if c = '[' then byPlace cs
      else .error (mistyped (c :: cs))

/-- Takes the member of a structure at the next place, which must be there. -/
def nextPlace {α : Type} (first : Bool) (item : Scanner α) : Scanner α := fun cs => do
  let (more, cs) ← nextItem first cs
  if more then item cs else throw .wrongShape

/-- Takes the end of a structure whose members stand by their places. -/
def endOfPlaces (cs : List Char) : Except ReadFault (List Char) :=
  match skipSpace cs with
  | [] => .error .endsEarly
  | c :: cs => if c = ']' then .ok cs else .error .malformed

end PgSteward.Json
