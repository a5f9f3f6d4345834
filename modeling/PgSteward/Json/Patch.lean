import PgSteward.Json.Value
import PgSteward.Text.Cut
import PgSteward.Text.Numeral

/-!
# JSON patches

A JSON patch (RFC 6902) is a list of operations on places of a value.  Three operations are known:
`test` compares the value at a place, where nothing counts as null, `add` sets a member or puts an
item into a list, and `remove` takes a value away.  A patch is applied as a whole or not at all.
-/

namespace PgSteward.Json

/-- A place in a value: the names of members and the positions of items on the way. -/
abbrev Place := List String

/-- The place that a pointer names.  Slashes separate the steps; in a step `~1` stands for a slash
and `~0` for a tilde. -/
def placeOf (pointer : String) : Place :=
  ((Text.pieces '/' pointer.toList).drop 1).map fun step => String.ofList (unescape step)
where
  /-- A step without its escapes. -/
  unescape : List Char → List Char
    | '~' :: '1' :: cs => '/' :: unescape cs
    | '~' :: '0' :: cs => '~' :: unescape cs
    | c :: cs => c :: unescape cs
    | [] => []

/-- A position in a list. -/
def position? (step : String) : Option Nat :=
  if step.toList.all fun c => (Text.digit? c).isSome then Text.natural? step.toList else none

/-- The part of a value that a step leads to. -/
def part? (step : String) : Json → Option Json
  | .object ms => JsonMembers.find? step ms
  | .list items => (position? step).bind fun i => items[i]?
  | _ => none

/-- The value at a place. -/
def at? : Place → Json → Option Json
  | [], j => some j
  | step :: rest, j => (j.part? step).bind (at? rest)

/-- Sets a member, or puts an item into a list; `-` is the place after the last item. -/
def addPart? (step : String) (value : Json) : Json → Option Json
  | .object ms => some (.object (JsonMembers.put step value ms))
  | .list items =>
      if step = "-" then some (.list (items ++ [value]))
      else (position? step).bind fun i =>
        if i ≤ items.length then some (.list (items.take i ++ value :: items.drop i)) else none
  | _ => none

/-- Takes away a member or an item that is there. -/
def removePart? (step : String) : Json → Option Json
  | .object ms => (JsonMembers.find? step ms).map fun _ => .object (JsonMembers.drop step ms)
  | .list items => (position? step).bind fun i =>
      if i < items.length then some (.list (items.eraseIdx i)) else none
  | _ => none

/-- Puts another value in the place of a part that is there. -/
def setPart? (step : String) (value : Json) : Json → Option Json
  | .object ms => (JsonMembers.find? step ms).map fun _ => .object (JsonMembers.put step value ms)
  | .list items => (position? step).bind fun i =>
      if i < items.length then some (.list (items.set i value)) else none
  | _ => none

/-- Changes the value that holds the last step of a place. -/
def within? (change : String → Json → Option Json) : Place → Json → Option Json
  | [], _ => none
  | [step], j => change step j
  | step :: rest, j => do
      let part ← j.part? step
      let part ← within? change rest part
      setPart? step part j

/-- An operation of a patch. -/
inductive PatchStep where
  /-- The value at a place must be this one. -/
  | test (place : String) (value : Json)
  /-- Puts a value at a place. -/
  | add (place : String) (value : Json)
  /-- Takes the value at a place away. -/
  | remove (place : String)

/-- Why a patch is not applied. -/
inductive PatchFault where
  /-- A test found another value at its place. -/
  | testFailed (place : String)
  /-- There is no such place. -/
  | noPlace (place : String)

/-- A value after one operation. -/
def applyStep (j : Json) : PatchStep → Except PatchFault Json
  | .test place value =>
      if ((at? (placeOf place) j).getD .null).same value then .ok j else .error (.testFailed place)
  | .add place value =>
      match within? (fun step part => addPart? step value part) (placeOf place) j with
      | some j => .ok j
      | none => .error (.noPlace place)
  | .remove place =>
      match within? removePart? (placeOf place) j with
      | some j => .ok j
      | none => .error (.noPlace place)

/-- A value after the operations of a patch, in order. -/
def applyPatch : List PatchStep → Json → Except PatchFault Json
  | [], j => .ok j
  | step :: rest, j =>
      match applyStep j step with
      | .ok j => applyPatch rest j
      | .error e => .error e

example : (applyPatch [.add "/a/-" (.text "y")] (.object [("a", .list [.text "x"])])).toOption =
    some (.object [("a", .list [.text "x", .text "y"])]) := by rfl

example : (applyPatch [.test "/a" .null, .add "/a" (.bool true), .remove "/b"]
    (.object [("b", .null)])).toOption = some (.object [("a", .bool true)]) := by rfl

/-- An operation as a value. -/
def PatchStep.toJson : PatchStep → Json
  | .test place value => .object [("op", .text "test"), ("path", .text place), ("value", value)]
  | .add place value => .object [("op", .text "add"), ("path", .text place), ("value", value)]
  | .remove place => .object [("op", .text "remove"), ("path", .text place)]

end PgSteward.Json
