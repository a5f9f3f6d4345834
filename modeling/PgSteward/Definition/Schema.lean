import PgSteward.Json.Value

/-!
# Schemas

A schema describes the values of a type to a Kubernetes API.  It says the type and, where there is
something to say, what the value means, which one it has when it is left out, and whether it may be
null.
-/

namespace PgSteward

/-- What a schema says about a value besides its type. -/
structure SchemaNote where
  /-- What the value means. -/
  description : Option String := none
  /-- The value when it is left out. -/
  default : Option Json := none
  /-- Whether the value may be null. -/
  isNullable : Bool := false

/-- A description of values. -/
inductive Schema where
  /-- A text, of a format or one of some words. -/
  | text (note : SchemaNote) (format : Option String) (words : List String)
  /-- A truth value. -/
  | boolean (note : SchemaNote)
  /-- A list of values of a type. -/
  | list (note : SchemaNote) (item : Schema)
  /-- An object, with the names of those members that must be there. -/
  | object (note : SchemaNote) (title : Option String) (members : List (String × Schema))
      (required : List String)

namespace SchemaNote

/-- The members of a schema that say what a note says. -/
def members (n : SchemaNote) : JsonMembers :=
  let text (s : String) : JsonMembers := [("description", .text s)]
  let default (j : Json) : JsonMembers := [("default", j)]
  (n.description.map text).getD [] ++ (n.default.map default).getD [] ++
    if n.isNullable then [("nullable", .bool true)] else []

end SchemaNote

namespace Schema

/-- A text. -/
def plainText : Schema := .text {} none []

/-- A text that may be left out and is empty then. -/
def optionalText : Schema := .text { default := some (.text "") } none []

/-- A text with a meaning. -/
def describedText (description : String) : Schema :=
  .text { description := some description } none []

/-- An instant, or null. -/
def instant : Schema := .text { isNullable := true } (some "date-time") []

/-- A truth value with a meaning, false when it is left out. -/
def flag (description : String) : Schema :=
  .boolean { description := some description, default := some (.bool false) }

/-- An object with its members. -/
def record (note : SchemaNote) (members : List (String × Schema)) (required : List String) :
    Schema :=
  .object note none members required

/-- The member of a name, if there is something to write. -/
def listed (name : String) (texts : List String) : JsonMembers :=
  if texts.isEmpty then [] else [(name, .ofTexts texts)]

/-- The member with a text, if there is one. -/
def said (name : String) : Option String → JsonMembers
  | none => []
  | some s => [(name, .text s)]

/-- The member with the name of a type. -/
def typed (type : String) : JsonMembers := [("type", .text type)]

mutual

/-- A schema as a value, with its members in order. -/
def encode : Schema → Json
  | .text note format words =>
      .ofMembers (note.members ++ said "format" format ++ listed "enum" words ++ typed "string")
  | .boolean note => .ofMembers (note.members ++ typed "boolean")
  | .list note item =>
      .ofMembers (note.members ++ [("items", encode item)] ++ typed "array")
  | .object note title members required =>
      .ofMembers (note.members ++ said "title" title ++
        [("properties", .ofMembers (encodeMembers members))] ++ listed "required" required ++
        typed "object")

/-- The members of an object as members of a value. -/
def encodeMembers : List (String × Schema) → JsonMembers
  | [] => []
  | (name, s) :: rest => (name, encode s) :: encodeMembers rest

end

end Schema

end PgSteward
