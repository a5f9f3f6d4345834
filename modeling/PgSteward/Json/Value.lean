/-!
# JSON values

A value is null, a boolean, a number, a text, a list or an object.  A number is an integer of 64
bits or a decimal fraction.  An object is a list of members; every reader and every writer of this
library keeps the names of an object distinct, and `Json.ofMembers` also puts them in the order of
their code points.
-/

namespace PgSteward

/-- A number: an integer, or a decimal fraction `± digits * 10 ^ exponent`. -/
inductive JsonNumber where
  /-- An integer of 64 bits, with or without a sign. -/
  | integer (value : Int)
  /-- Any other number. -/
  | fraction (negative : Bool) (digits : Nat) (exponent : Int)
deriving DecidableEq, Repr

/-- A JSON value. -/
inductive Json where
  /-- No value. -/
  | null
  /-- A boolean. -/
  | bool (value : Bool)
  | number (value : JsonNumber)
  | text (value : String)
  /-- A list of values. -/
  | list (items : List Json)
  | object (members : List (String × Json))
deriving Inhabited, Repr

/-- The members of an object. -/
abbrev JsonMembers := List (String × Json)

namespace JsonMembers

/-- The value of the member of a name. -/
def find? (name : String) : JsonMembers → Option Json
  | [] => none
  | (n, v) :: rest => if n = name then some v else find? name rest

/-- The members with one of them set.  A new member goes to the end. -/
def put (name : String) (value : Json) : JsonMembers → JsonMembers
  | [] => [(name, value)]
  | (n, v) :: rest => if n = name then (n, value) :: rest else (n, v) :: put name value rest

/-- The members without one of them. -/
def drop (name : String) : JsonMembers → JsonMembers
  | [] => []
  | (n, v) :: rest => if n = name then drop name rest else (n, v) :: drop name rest

/-- Sets a member of a list in the order of the names, and keeps the order. -/
def putOrdered (name : String) (value : Json) : JsonMembers → JsonMembers
  | [] => [(name, value)]
  | (n, v) :: rest =>
      if n = name then (n, value) :: rest
      else if name < n then (name, value) :: (n, v) :: rest
      else (n, v) :: putOrdered name value rest

/-! ## Laws -/

theorem find?_put (name other : String) (value : Json) (ms : JsonMembers) :
    find? other (put name value ms) = if name = other then some value else find? other ms := by
  induction ms with
  | nil => simp [put, find?]
  | cons m ms ih =>
      by_cases h : m.1 = name
      · subst h
        by_cases ho : m.1 = other <;> simp [put, find?, ho]
      · by_cases ho : m.1 = other
        · subst ho
          have hn : ¬ name = m.1 := fun e => h e.symm
          simp [put, find?, h, hn]
        · simp [put, find?, h, ho, ih]

theorem find?_drop (name other : String) (ms : JsonMembers) :
    find? other (drop name ms) = if name = other then none else find? other ms := by
  induction ms with
  | nil => simp [drop, find?]
  | cons m ms ih =>
      by_cases h : m.1 = name
      · subst h
        simp only [drop, if_pos, ih, find?]
        by_cases ho : m.1 = other <;> simp [ho]
      · by_cases ho : m.1 = other
        · subst ho
          have hn : ¬ name = m.1 := fun e => h e.symm
          simp [drop, find?, h, hn]
        · simp [drop, find?, h, ho, ih]

end JsonMembers

namespace Json

/-- An object whose members are in the order of their names.  Of two members of one name the last
counts. -/
def ofMembers (ms : JsonMembers) : Json :=
  .object (ms.foldl (fun sorted m => JsonMembers.putOrdered m.1 m.2 sorted) [])

/-- An integer. -/
def ofInt (n : Int) : Json := .number (.integer n)

/-- A natural number. -/
def ofNat (n : Nat) : Json := ofInt (Int.ofNat n)

/-- A list of texts. -/
def ofTexts (texts : List String) : Json := .list (texts.map .text)

/-- A text, or null for none. -/
def ofText? : Option String → Json
  | none => .null
  | some s => .text s

/-- The members of an object; another value has none. -/
def members : Json → JsonMembers
  | .object ms => ms
  | _ => []

/-- The member of an object. -/
def member? (name : String) (j : Json) : Option Json := j.members.find? name

/-- The text of a value that is one. -/
def text? : Json → Option String
  | .text s => some s
  | _ => none

/-- The integer of a value that is one. -/
def int? : Json → Option Int
  | .number (.integer n) => some n
  | _ => none

/-! ## Equality

Two objects are the same value when they have the same members, in whatever order. -/

mutual

/-- Whether two values are the same. -/
def same : Json → Json → Bool
  | .null, .null => true
  | .bool a, .bool b => a == b
  | .number a, .number b => a == b
  | .text a, .text b => a == b
  | .list as, .list bs => sameItems as bs
  | .object as, .object bs => as.length == bs.length && sameMembers as bs
  | _, _ => false

/-- Whether two lists hold the same values. -/
def sameItems : List Json → List Json → Bool
  | [], [] => true
  | a :: as, b :: bs => same a b && sameItems as bs
  | _, _ => false

/-- Whether every member of the first object is a member of the second. -/
def sameMembers : List (String × Json) → List (String × Json) → Bool
  | [], _ => true
  | (name, a) :: as, bs =>
      (match JsonMembers.find? name bs with
        | some b => same a b
        | none => false) && sameMembers as bs

end

end Json

example : Json.ofMembers [("b", .null), ("a", .bool true), ("b", .bool false)]
    = .object [("a", .bool true), ("b", .bool false)] := by rfl

end PgSteward
