import PgSteward.NameMap
import PgSteward.Resource.User

/-!
# Access to databases

A privilege is to read or to write.  A planned access is what one intent of a user comes to on one
database; planned accesses are kept by the host and the database that they are on.
-/

namespace PgSteward

/-- What may be done with the data of a database. -/
inductive Privilege where
  | read
  /-- To read and write. -/
  | write
deriving DecidableEq, Repr

/-- The greater of two privileges. -/
def Privilege.max : Privilege → Privilege → Privilege
  | .read, p => p
  | .write, _ => .write

/-- What is allowed on all hosts. -/
structure AccessFlags where
  /-- Whether all databases of a host may be read at once. -/
  allDatabasesRead : Bool := false
  /-- Whether all databases of a host may be written at once. -/
  allDatabasesWrite : Bool := false
  /-- Whether the extended privileges may be given. -/
  extendedWrite : Bool := false
deriving DecidableEq, Repr

/-- Whether all databases of a host may be accessed at once. -/
def AccessFlags.allDatabases (f : AccessFlags) : Privilege → Bool
  | .read => f.allDatabasesRead
  | .write => f.allDatabasesWrite

/-- What an intent comes to on one database. -/
structure PlannedAccess where
  host : String
  database : String
  schema : String
  privilege : Privilege
  /-- Whether the extended privileges are given. -/
  extended : Bool
  intent : AccessIntent
deriving DecidableEq

/-- The key of a database on a host. -/
def accessKey (host database : String) : String := s!"{host}/{database}"

/-- The key of the database of a planned access. -/
def PlannedAccess.key (a : PlannedAccess) : String := accessKey a.host a.database

/-- Planned accesses by their keys. -/
abbrev AccessMap := NameMap (List PlannedAccess)

/-- All planned accesses, in the order of their keys. -/
def AccessMap.all (m : AccessMap) : List PlannedAccess := m.toList.flatMap (·.2)

/-- The name of a user as part of a role, with underscores for its dots. -/
def sanitize (name : String) : String :=
  String.ofList (name.toList.map fun c => if c = '.' then '_' else c)

end PgSteward
