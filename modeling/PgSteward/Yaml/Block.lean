import PgSteward.Json.Printer
import PgSteward.Json.Reader
import PgSteward.Text.Cut
import PgSteward.Text.SingleQuoted

/-!
# YAML in blocks

A JSON value is written as a YAML document with one member or item a line.  The members of an object
inside an object are indented by two blanks; the items of a list stand under the dash at the
indentation of the member that they belong to.  Empty lists and objects stand in brackets.

A text is plain unless it could be read as something else; then it stands between single quotes.
-/

namespace PgSteward.Yaml

/-- The characters that do not start a plain text. -/
def indicators : List Char :=
  ['-', '?', ':', ',', '[', ']', '\x7b', '\x7d', '#', '&', '*', '!', '|', '>', '\'', '"', '%', '@',
    '\x60', ' ', '~']

/-- Whether a text that is plain would be read as another value. -/
def readsOtherwise (s : String) : Bool := (Json.parse s).toOption.isSome

/-- Whether a text may be plain. -/
def isPlain (s : String) : Bool :=
  match s.toList with
  | [] => false
  | c :: cs =>
      !indicators.contains c && !readsOtherwise s && cs.getLast? ≠ some ':' &&
        cs.getLast? ≠ some ' ' && !Text.occursIn [':', ' '] cs && !Text.occursIn [' ', '#'] cs

/-- A text on its line. -/
def scalar (s : String) : String := if isPlain s then s else Text.singleQuoted s

/-- A value that stands on one line. -/
def inline? : Json → Option String
  | .text s => some (scalar s)
  | .list [] => some "[]"
  | .object [] => some "\x7b\x7d"
  | .list _ => none
  | .object _ => none
  | j => some j.compact

/-- Lines under a member. -/
def indented (lines : List String) : List String := lines.map fun line => "  " ++ line

/-- Lines under a dash. -/
def dashed : List String → List String
  | [] => []
  | line :: rest => ("- " ++ line) :: indented rest

/-- The lines of a member of an object, from those of its value. -/
def memberLines (name : String) (value : Json) (lines : List String) : List String :=
  match inline? value with
  | some text => [s!"{scalar name}: {text}"]
  | none =>
      match value with
      | .list _ => s!"{scalar name}:" :: lines
      | _ => s!"{scalar name}:" :: indented lines

mutual

/-- The lines of a value. -/
def lines : Json → List String
  | .list [] => ["[]"]
  | .object [] => ["\x7b\x7d"]
  | .list items => linesOfItems items
  | .object ms => linesOfMembers ms
  | .text s => [scalar s]
  | j => [j.compact]

/-- The lines of the items of a list. -/
def linesOfItems : List Json → List String
  | [] => []
  | j :: rest => dashed (lines j) ++ linesOfItems rest

/-- The lines of the members of an object. -/
def linesOfMembers : List (String × Json) → List String
  | [] => []
  | (name, j) :: rest => memberLines name j (lines j) ++ linesOfMembers rest

end

/-- The text of a document. -/
def document (j : Json) : String :=
  String.join (("---" :: lines j).map fun line => line ++ "\n")

end PgSteward.Yaml
