import PgSteward.Json.Fraction
import PgSteward.Text.Quoted

/-!
# Decoding structures

A structure is decoded from an object by the names of its members, or from a list by their places.
A `Record` is the source of the members, and a `Slot` is what it has for one of them: nothing, a
value, or a fault.  `Record.check` picks the fault that counts.

* By name, the member that is first in the order of the names and has a fault decides.  Only when
  every member that is there decodes, the first required member that is not there is reported.
* By place, the first member that has a fault or is required and not there decides.

Unknown members are ignored.
-/

namespace PgSteward

/-- Why a value does not decode. -/
inductive DecodeError where
  /-- The value is of another type. -/
  | mistyped (found expected : String)
  /-- A required member is not there. -/
  | missing (name : String)
  /-- A list is too short for the members of a structure. -/
  | tooShort (length : Nat) (type : String) (members : Nat)
  /-- A list is too long for the members of a structure. -/
  | tooLong (length members : Nat)
  /-- The same, for a structure in one whose members are merged into another structure. -/
  | surplus (length members : Nat)
  /-- A text names none of the variants. -/
  | unknownVariant (name : String) (known : List String)
  /-- An object that should name one variant does not have one member. -/
  | notOneVariant
  /-- The text of a value is no value of the type. -/
  | rejected (reason : String)
deriving DecidableEq

namespace DecodeError

/-- A count of members. -/
def countText (n : Nat) : String := if n = 1 then "1 element" else s!"{n} elements"

/-- The text of an error. -/
def message : DecodeError → String
  | .mistyped found expected => s!"invalid type: {found}, expected {expected}"
  | .missing name => "missing field `" ++ name ++ "`"
  | .tooShort length type members =>
      s!"invalid length {length}, expected struct {type} with {countText members}"
  | .tooLong length _ => s!"invalid length {length}, expected fewer elements in array"
  | .surplus length members =>
      s!"invalid length {length}, expected {countText members} in sequence"
  | .unknownVariant name known =>
      "unknown variant `" ++ name ++ "`, expected one of " ++
        ", ".intercalate (known.map fun k => "`" ++ k ++ "`")
  | .notOneVariant => "invalid value: map, expected map with a single key"
  | .rejected reason => reason

/-- The error of a structure whose members are merged into another. -/
def merged : DecodeError → DecodeError
  | .tooLong length members => .surplus length members
  | e => e

end DecodeError

/-- Reads a type off a value. -/
abbrev Decoder (α : Type) := Json → Except DecodeError α

namespace Json

/-- A value in the words of an error. -/
def described : Json → String
  | .null => "null"
  | .bool b => "boolean `" ++ (if b then "true" else "false") ++ "`"
  | .number (.integer n) => "integer `" ++ toString n ++ "`"
  | .number n => "floating point `" ++ n.render ++ "`"
  | .text s => "string " ++ Text.quoted s
  | .list _ => "sequence"
  | .object _ => "map"

/-- The error of a value that is not of an expected type. -/
def notA {α : Type} (expected : String) (j : Json) : Except DecodeError α :=
  .error (.mistyped j.described expected)

/-! ## Plain types -/

/-- Decodes a text. -/
def toText : Decoder String
  | .text s => .ok s
  | j => j.notA "a string"

/-- Decodes a boolean. -/
def toBool : Decoder Bool
  | .bool b => .ok b
  | j => j.notA "a boolean"

/-- Decodes the items of a list, the first fault first. -/
def toItems {α : Type} (item : Decoder α) : List Json → Except DecodeError (List α)
  | [] => .ok []
  | j :: rest =>
      match item j with
      | .error e => .error e
      | .ok a =>
          match toItems item rest with
          | .error e => .error e
          | .ok as => .ok (a :: as)

/-- Decodes a list. -/
def toList {α : Type} (item : Decoder α) : Decoder (List α)
  | .list items => toItems item items
  | j => j.notA "a sequence"

/-- Decodes a value that may be null. -/
def nullable {α : Type} (item : Decoder α) : Decoder (Option α)
  | .null => .ok none
  | j => (item j).map some

/-- Decodes the members of an object, the first fault first. -/
def toMembers {α : Type} (item : Decoder α) : JsonMembers → Except DecodeError (List (String × α))
  | [] => .ok []
  | (name, j) :: rest =>
      match item j with
      | .error e => .error e
      | .ok a =>
          match toMembers item rest with
          | .error e => .error e
          | .ok as => .ok ((name, a) :: as)

/-- Decodes an object as a map. -/
def toMap {α : Type} (item : Decoder α) : Decoder (List (String × α))
  | .object ms => toMembers item ms
  | j => j.notA "a map"

/-- Decodes a text that stands for a value. -/
def toParsed {α : Type} (expected : String) (parse : String → Except String α) : Decoder α
  | .text s => (parse s).mapError .rejected
  | j => j.notA expected

end Json

/-! ## Structures -/

/-- The source of the members of a structure. -/
inductive Record where
  /-- Members by their names. -/
  | byName (members : JsonMembers)
  /-- Members by their places. -/
  | byPlace (type : String) (count : Nat) (items : List Json)

namespace Record

/-- A structure of a type with a number of members. -/
def of (type : String) (count : Nat) : Decoder Record
  | .object ms => .ok (.byName ms)
  | .list items => .ok (.byPlace type count items)
  | j => j.notA ("struct " ++ type)

/-- What a record has for the member of a name at a place. -/
def source? (place : Nat) (name : String) : Record → Option Json
  | .byName ms => ms.find? name
  | .byPlace _ _ items => items[place]?

/-- The error of a record without a required member. -/
def absent (place : Nat) (name : String) : Record → DecodeError
  | .byName _ => .missing name
  | .byPlace type count _ => .tooShort place type count

end Record

/-- What a record has for a member. -/
structure Slot (α : Type) where
  /-- The name of the member. -/
  name : String
  /-- The value, if the member is there and decodes. -/
  value? : Option α
  /-- The fault of a member that is there. -/
  fault? : Option DecodeError
  /-- The fault of a required member that is not there. -/
  absent? : Option DecodeError

namespace Record

/-- A member that is there or not. -/
def slot {α : Type} (r : Record) (place : Nat) (name : String) (decode : Decoder α)
    (absent? : Option DecodeError) : Slot α :=
  match r.source? place name with
  | none => ⟨name, none, none, absent?⟩
  | some j =>
      match decode j with
      | .ok a => ⟨name, some a, none, none⟩
      | .error e => ⟨name, none, some e, none⟩

/-- A member that must be there. -/
def required {α : Type} (r : Record) (place : Nat) (name : String) (decode : Decoder α) : Slot α :=
  r.slot place name decode (some (r.absent place name))

/-- A member that may be left out. -/
def optional {α : Type} (r : Record) (place : Nat) (name : String) (decode : Decoder α) : Slot α :=
  r.slot place name decode none

end Record

/-- The faults of a member, without its value. -/
structure SlotFault where
  /-- The name of the member. -/
  name : String
  /-- The fault of a member that is there. -/
  fault? : Option DecodeError
  /-- The fault of a required member that is not there. -/
  absent? : Option DecodeError

/-- The faults of a member. -/
def Slot.faults {α : Type} (s : Slot α) : SlotFault := ⟨s.name, s.fault?, s.absent?⟩

/-- The value of a member that is there after all faults have been ruled out. -/
def Slot.get {α : Type} (s : Slot α) : Except DecodeError α :=
  match s.value? with
  | some a => .ok a
  | none => .error (.missing s.name)

/-- The value of a member, or a default. -/
def Slot.getD {α : Type} (s : Slot α) (default : α) : α := s.value?.getD default

namespace Record

/-- The fault of the first name, of those seen so far and the rest. -/
def firstByName (best : Option (String × DecodeError)) : List SlotFault → Option DecodeError
  | [] => best.map (·.2)
  | s :: rest =>
      match s.fault? with
      | none => firstByName best rest
      | some e =>
          match best with
          | none => firstByName (some (s.name, e)) rest
          | some (n, d) =>
              if s.name < n then firstByName (some (s.name, e)) rest
              else firstByName (some (n, d)) rest

/-- The fault that counts among those of the members, which are in the order of declaration. -/
def fault? (r : Record) (slots : List SlotFault) : Option DecodeError :=
  match r with
  | .byName _ =>
      match firstByName none slots with
      | some e => some e
      | none => slots.findSome? (·.absent?)
  | .byPlace _ count items =>
      match slots.findSome? fun s => s.fault?.or s.absent? with
      | some e => some e
      | none => if count < items.length then some (.tooLong items.length count) else none

/-- Fails when some member has a fault. -/
def check (r : Record) (slots : List SlotFault) : Except DecodeError Unit :=
  match r.fault? slots with
  | some e => .error e
  | none => .ok ()

end Record

/-! ## Writing members -/

/-- A member that is written, as a list. -/
def written (name : String) (j : Json) : JsonMembers := [(name, j)]

/-- A member that is written when there is a value. -/
def writtenIf {α : Type} (name : String) (encode : α → Json) : Option α → JsonMembers
  | none => []
  | some a => [(name, encode a)]

end PgSteward
