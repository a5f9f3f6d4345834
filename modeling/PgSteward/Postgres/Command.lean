import PgSteward.Postgres.Catalog

/-!
# Reading statements

A server takes statements as texts.  `Command.read` finds out from the words of a text what it does
to the catalog.  A grant that names an object after `ON` gives privileges and not memberships, and
leaves the catalog as it is.
-/

namespace PgSteward

namespace Text

/-- A text without its first bytes, if they end with a character. -/
def dropBytes? : Nat → List Char → Option (List Char)
  | 0, cs => some cs
  | _ + 1, [] => none
  | n + 1, c :: cs => if c.utf8Size ≤ n + 1 then dropBytes? (n + 1 - c.utf8Size) cs else none
termination_by _ cs => cs.length

end Text

namespace Command

/-- The names of a list with commas. -/
def namesOf (cs : List Char) : List String :=
  (Text.pieces ',' cs).map fun name => String.ofList (Text.trim name)

/-- The text in front of the roles of a new role. -/
def inRoleMark : List Char := [' ', 'I', 'N', ' ', 'R', 'O', 'L', 'E', ' ']

/-- The text in front of the object of a grant. -/
def onMark : List Char := [' ', 'O', 'N', ' ']

/-- The text in front of the member of a grant. -/
def toMark : List Char := [' ', 'T', 'O', ' ']

/-- The roles that a new role is a member of. -/
def newRoles (statement : List Char) : List String :=
  match Text.cutAtText inRoleMark statement with
  | some (_, roles) => namesOf roles
  | none => []

/-- The number of bytes of the word `GRANT` and of the blank after it. -/
def grantBytes : Nat := 6

/-- What a grant of roles does. -/
def readGrant (statement : String) : Command :=
  match (Text.dropBytes? grantBytes statement.toList).bind (Text.cutAtText toMark) with
  | some (roles, member) => .grantRoles (namesOf roles) (String.ofList member)
  | none => .malformedGrant statement

/-- What a statement does to the catalog. -/
def read (statement : String) : Command :=
  let cs := statement.toList
  match Text.wordsOf statement with
  | "CREATE" :: "ROLE" :: name :: _ => .createRole name (newRoles cs)
  | ["CREATE", "DATABASE", name] => .createDatabase name
  | ["ALTER", "DATABASE", name, "OWNER", "TO", owner] => .alterDatabaseOwner name owner
  | ["CREATE", "SCHEMA", name] => .createSchema name
  | "CREATE" :: "EXTENSION" :: "IF" :: "NOT" :: "EXISTS" :: name :: _ => .createExtension name
  | "GRANT" :: _ => if Text.occursIn onMark cs then .other else readGrant statement
  | ["REVOKE", role, "FROM", member] =>
      if Text.occursIn onMark cs then .other else .revokeRole role member
  | _ => .other

example : read "GRANT a, b TO c" = .grantRoles ["a", "b"] "c" := by decide +kernel

example : read "GRANT CONNECT ON DATABASE a TO b" = .other := by decide +kernel

example : read "CREATE ROLE a WITH LOGIN PASSWORD 'x y' IN ROLE b" = .createRole "a" ["b"] := by
  decide +kernel

end Command

end PgSteward
