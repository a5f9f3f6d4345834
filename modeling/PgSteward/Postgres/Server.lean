import PgSteward.Postgres.Connection
import PgSteward.Postgres.Statement
import PgSteward.Program

/-!
# Work on a server

A server offers sessions, which run statements and answer queries.  The operations of this module
may be repeated: each leads to the same state, however often it runs.  When what they create is
there already, the server's error is no failure.

Every name is checked before the first statement that it stands in.
-/

namespace PgSteward

/-- An open connection. -/
structure Session where
  host : String
  /-- The role. -/
  user : String
  database : String
deriving DecidableEq, Repr

namespace Session

/-- The session that a connection opens. -/
def opened (t : ConnectionTarget) : Session :=
  { host := t.host, user := t.user, database := t.database }

/-- The text for a session. -/
def render (s : Session) : String := s!"{s.user}@{s.host}/{s.database}"

end Session

/-- What a database server offers to programs over surroundings `σ`. -/
structure Server (σ : Type) where
  /-- Opens a session. -/
  connect : ConnectionTarget → Program σ SqlError Session
  /-- Runs a statement. -/
  execute : Session → String → Program σ SqlError Unit
  /-- Answers a query. -/
  ask : Session → Query → Program σ SqlError (List String)
  close : Session → Program σ SqlError Unit

/-- The name of a code that says that an object is there already. -/
def alreadyThere? (code : String) : Option String :=
  if code = "42710" then some "duplicate_object"
  else if code = "42P04" then some "duplicate_database"
  else if code = "42P06" then some "duplicate_schema"
  else none

/-- Whether an error says that an object is there already. -/
def SqlError.isAlreadyThere (e : SqlError) : Bool :=
  (e.code?.bind alreadyThere?).isSome

namespace Server

variable {σ : Type} (server : Server σ) (session : Session)

/-- Runs a statement. -/
def run (statement : Statement) : Program σ SqlError Unit := server.execute session statement.text

/-- Runs statements in order, up to the first failure. -/
def runAll (statements : List Statement) : Program σ SqlError Unit :=
  Program.sequence (statements.map (server.run session))

/-- Runs a statement that creates something, and says whether it was not there before. -/
def create (statement : Statement) : Program σ SqlError Bool := do
  match ← Program.attempt (server.run session statement) with
  | .ok () => return true
  | .error e => if e.isAlreadyThere then return false else throw e

/-- Makes sure that a role exists.  A role that is there gets the password, if one is given, and
the memberships are granted in either case. -/
def ensureRole (name : String) (login : Bool) (inRoles : List String) (password : Option String) :
    Program σ SqlError Unit := do
  let role ← Program.ofExcept (Identifier.of name)
  let roles ← Program.ofExcept (Identifier.ofAll inRoles)
  let isNew ← server.create session (.createRole role login password roles)
  if let (false, some password) := (isNew, password) then
    server.run session (.setPassword role password)
  if !roles.isEmpty then
    server.run session (.grantRoles roles role)

/-- Makes a role a member of another. -/
def grantRole (role member : String) : Program σ SqlError Unit := do
  let role ← Program.ofExcept (Identifier.of role)
  let member ← Program.ofExcept (Identifier.of member)
  server.run session (.grantRoles [role] member)

/-- Ends a membership. -/
def revokeRole (role member : String) : Program σ SqlError Unit := do
  let role ← Program.ofExcept (Identifier.of role)
  let member ← Program.ofExcept (Identifier.of member)
  server.run session (.revokeRole role member)

/-- Sets the password of the login of a service. -/
def alterService (name password : String) : Program σ SqlError Unit := do
  let role ← Program.ofExcept (Identifier.of name)
  server.run session (.alterService role password)

/-- Makes sure that a database exists. -/
def ensureDatabase (name : String) : Program σ SqlError Unit := do
  let database ← Program.ofExcept (Identifier.of name)
  let _ ← server.create session (.createDatabase database)

/-- Gives a database another owner. -/
def alterDatabaseOwner (name owner : String) : Program σ SqlError Unit := do
  let database ← Program.ofExcept (Identifier.of name)
  let owner ← Program.ofExcept (Identifier.of owner)
  server.run session (.alterDatabaseOwner database owner)

/-- The owner of a database. -/
def databaseOwner (name : String) : Program σ SqlError (Option String) := do
  let owners ← server.ask session (.databaseOwner name)
  return owners.head?

/-- Makes sure that a schema exists in the database of the session.  A new one belongs to the role
of the session. -/
def ensureSchema (name : String) : Program σ SqlError Unit := do
  let schema ← Program.ofExcept (Identifier.of name)
  let _ ← server.create session (.createSchema schema)

/-- Takes every right on a database, on its public schema and on the tables there from the
public. -/
def revokePublic (database : String) : Program σ SqlError Unit := do
  let database ← Program.ofExcept (Identifier.of database)
  server.runAll session [.revokeDatabase database, .revokeSchema, .revokeTables]

/-- Lets a role connect to a database. -/
def grantConnect (database role : String) : Program σ SqlError Unit := do
  let database ← Program.ofExcept (Identifier.of database)
  let role ← Program.ofExcept (Identifier.of role)
  server.run session (.grantConnect database role)

/-- Lets a role use a schema. -/
def grantSchemaUsage (role schema : String) : Program σ SqlError Unit := do
  let schema ← Program.ofExcept (Identifier.of schema)
  let role ← Program.ofExcept (Identifier.of role)
  server.run session (.grantUsage schema role)

/-- Gives a role privileges on the tables of a schema. -/
def grantTablePrivileges (role schema : String) (privileges : TablePrivileges) :
    Program σ SqlError Unit := do
  let schema ← Program.ofExcept (Identifier.of schema)
  let role ← Program.ofExcept (Identifier.of role)
  server.run session (.grantTables privileges schema role)

/-- The roles that a role is a direct member of. -/
def roleMemberships (role : String) : Program σ SqlError (List String) :=
  server.ask session (.memberships role)

/-- Installs the extension of a name into a schema. -/
def createExtension (schema : Identifier) (name : String) : Program σ SqlError Unit := do
  let extension ← Program.ofExcept (Identifier.of name)
  server.run session (.createExtension extension schema)

/-- Installs the extensions that are not there yet into a schema.  None is ever removed. -/
def ensureExtensions (schema : String) (extensions : List String) : Program σ SqlError Unit := do
  if !extensions.isEmpty then
    let schema ← Program.ofExcept (Identifier.of schema)
    let installed ← server.ask session .extensions
    Program.sequence ((extensions.filter fun e => !installed.contains e).map
      (server.createExtension session schema))

end Server

end PgSteward
