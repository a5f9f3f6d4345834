import PgSteward.Json.Fraction

/-!
# Compact JSON text

A value is written without blanks, the members of an object in their order.  In a text the quote,
the backslash and the control characters are escaped, five of the controls by a letter and the
others by their number in four digits; every other character stands for itself.
-/

namespace PgSteward.Json

/-- One digit to the base sixteen. -/
def hexDigit (n : Nat) : Char := Nat.digitChar (n % 16)

/-- A control character by its number. -/
def controlEscape (c : Char) : List Char :=
  ['\\', 'u', '0', '0', hexDigit (c.toNat / 16), hexDigit c.toNat]

/-- A character as it stands in a text. -/
def escapedChar (c : Char) : List Char :=
  if c = '"' then ['\\', '"']
  else if c = '\\' then ['\\', '\\']
  else if c = '\x08' then ['\\', 'b']
  else if c = '\x09' then ['\\', 't']
  else if c = '\x0a' then ['\\', 'n']
  else if c = '\x0c' then ['\\', 'f']
  else if c = '\x0d' then ['\\', 'r']
  else if c.toNat < 0x20 then controlEscape c
  else [c]

/-- A text between its quotes. -/
def textLiteral (s : String) : List Char :=
  '"' :: s.toList.flatMap escapedChar ++ ['"']

mutual

/-- The compact text of a value. -/
def print : Json → List Char
  | .null => ['n', 'u', 'l', 'l']
  | .bool true => ['t', 'r', 'u', 'e']
  | .bool false => ['f', 'a', 'l', 's', 'e']
  | .number n => n.render.toList
  | .text s => textLiteral s
  | .list items => '[' :: printItems items ++ [']']
  | .object members => '\x7b' :: printMembers members ++ ['\x7d']

/-- The items of a list, with commas between them. -/
def printItems : List Json → List Char
  | [] => []
  | [j] => print j
  | j :: rest => print j ++ ',' :: printItems rest

/-- The members of an object, with commas between them. -/
def printMembers : List (String × Json) → List Char
  | [] => []
  | [m] => printMember m
  | m :: rest => printMember m ++ ',' :: printMembers rest

/-- A member of an object. -/
def printMember : String × Json → List Char
  | (name, j) => textLiteral name ++ ':' :: print j

end

/-- The compact text of a value. -/
def compact (j : Json) : String := String.ofList j.print

example : (Json.object [("a", .list [.ofNat 1, .null]), ("b", .text "\x01\"")]).compact
    = "\x7b\"a\":[1,null],\"b\":\"\\u0001\\\"\"\x7d" := by decide

end PgSteward.Json
