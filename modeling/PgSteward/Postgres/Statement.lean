import PgSteward.Postgres.Identifier

/-!
# Statements

The statements that the operator runs, and the queries it asks.  A statement holds identifiers in
place of names, so no name in it can be mistaken for anything else; a password is a literal.  The
arguments of a query travel beside its text.
-/

namespace PgSteward

/-- What a managed role may do with the tables of a schema. -/
inductive TablePrivileges where
  | read
  /-- Read and change their rows. -/
  | write
  /-- Also empty them, refer to them and set triggers on them. -/
  | extendedWrite
deriving DecidableEq, Repr

/-- The privileges as they stand in a statement. -/
def TablePrivileges.sql : TablePrivileges → String
  | .read => "SELECT"
  | .write => "SELECT, INSERT, UPDATE, DELETE"
  | .extendedWrite => "SELECT, INSERT, UPDATE, DELETE, TRUNCATE, REFERENCES, TRIGGER"

/-- A statement. -/
inductive Statement where
  /-- Creates a role, with or without a login, a password and memberships. -/
  | createRole (role : Identifier) (login : Bool) (password : Option String)
      (roles : List Identifier)
  | setPassword (role : Identifier) (password : String)
  /-- Makes a role a login with a password that does not expire, without the right to create
  roles. -/
  | alterService (role : Identifier) (password : String)
  /-- Makes a role a member of other roles. -/
  | grantRoles (roles : List Identifier) (member : Identifier)
  /-- Ends a membership. -/
  | revokeRole (role member : Identifier)
  | createDatabase (database : Identifier)
  /-- Gives a database another owner. -/
  | alterDatabaseOwner (database owner : Identifier)
  /-- Creates a schema in the database of the session. -/
  | createSchema (schema : Identifier)
  /-- Takes every right on a database from the public. -/
  | revokeDatabase (database : Identifier)
  /-- Takes every right on the public schema from the public. -/
  | revokeSchema
  /-- Takes every right on the tables of the public schema from the public. -/
  | revokeTables
  /-- Lets a role connect to a database. -/
  | grantConnect (database role : Identifier)
  /-- Lets a role use a schema. -/
  | grantUsage (schema role : Identifier)
  /-- Gives a role privileges on the tables of a schema. -/
  | grantTables (privileges : TablePrivileges) (schema role : Identifier)
  /-- Installs an extension into a schema. -/
  | createExtension (extension schema : Identifier)
deriving DecidableEq

namespace Statement

/-- Names with commas between them. -/
def listText (names : List Identifier) : String := ", ".intercalate (names.map (·.name))

/-- The password of a role that is created. -/
def passwordText : Option String → String
  | none => ""
  | some password => " PASSWORD " ++ literal password

/-- The memberships of a role that is created. -/
def rolesText (roles : List Identifier) : String :=
  if roles.isEmpty then "" else " IN ROLE " ++ listText roles

/-- The text of a statement. -/
def text : Statement → String
  | .createRole role login password roles =>
      s!"CREATE ROLE {role.name} WITH " ++ (if login then "LOGIN" else "NOLOGIN") ++
        passwordText password ++ rolesText roles
  | .setPassword role password => s!"ALTER ROLE {role.name} WITH PASSWORD {literal password}"
  | .alterService role password =>
      s!"ALTER ROLE {role.name} WITH LOGIN PASSWORD {literal password}" ++
        " VALID UNTIL 'infinity' NOCREATEROLE"
  | .grantRoles roles member => s!"GRANT {listText roles} TO {member.name}"
  | .revokeRole role member => s!"REVOKE {role.name} FROM {member.name}"
  | .createDatabase database => s!"CREATE DATABASE {database.name}"
  | .alterDatabaseOwner database owner => s!"ALTER DATABASE {database.name} OWNER TO {owner.name}"
  | .createSchema schema => s!"CREATE SCHEMA {schema.name}"
  | .revokeDatabase database => s!"REVOKE ALL ON DATABASE {database.name} FROM PUBLIC"
  | .revokeSchema => "REVOKE ALL ON SCHEMA public FROM PUBLIC"
  | .revokeTables => "REVOKE ALL ON ALL TABLES IN SCHEMA public FROM PUBLIC"
  | .grantConnect database role => s!"GRANT CONNECT ON DATABASE {database.name} TO {role.name}"
  | .grantUsage schema role => s!"GRANT USAGE ON SCHEMA {schema.name} TO {role.name}"
  | .grantTables privileges schema role =>
      s!"GRANT {privileges.sql} ON ALL TABLES IN SCHEMA {schema.name} TO {role.name}"
  | .createExtension extension schema =>
      s!"CREATE EXTENSION IF NOT EXISTS {extension.name} WITH SCHEMA {schema.name}"

end Statement

/-- A query for names. -/
inductive Query where
  | databaseOwner (database : String)
  /-- The roles that a role is a direct member of. -/
  | memberships (role : String)
  /-- The extensions that are installed. -/
  | extensions
deriving DecidableEq

namespace Query

/-- The text of a query, with places for its arguments. -/
def text : Query → String
  | .databaseOwner _ => "SELECT pg_get_userbyid(datdba)::text FROM pg_database WHERE datname = $1"
  | .memberships _ =>
      "SELECT r.rolname::text FROM pg_user u JOIN pg_auth_members m ON m.member = u.usesysid " ++
        "JOIN pg_roles r ON r.oid = m.roleid WHERE u.usename = $1"
  | .extensions => "SELECT extname::text FROM pg_extension"

/-- The arguments of a query. -/
def arguments : Query → List String
  | .databaseOwner database => [database]
  | .memberships role => [role]
  | .extensions => []

end Query

end PgSteward
