import PgSteward.Postgres.Server

/-!
# Databases on a host

`Provisioner.provide` makes a database, its owning role, its schema and its extensions.  It works in
three sessions: as administrator for the roles and the database, as the owning role for the schema
and the rights of the public, and as administrator in the new database for the extensions.

Every owning role and the manager role are members of each other, so the operator can administer
what any of them creates.  A server that refuses the second of the two memberships, since it goes
in a circle, is left as it is.

All names are checked before the first connection.
-/

namespace PgSteward

/-- What the making of databases depends on. -/
structure Provisioner (σ : Type) where
  server : Server σ
  /-- The role that administers all databases. -/
  managerRole : String
  /-- The database that administrators connect to. -/
  adminDatabase : String

namespace Provisioner

variable {σ : Type} (p : Provisioner σ)

/-- The code of a grant that a server refuses. -/
def invalidGrant : String := "0LP01"

/-- The connection of the owning role to its database. -/
def ownerConnection (host : String) (admin : AdminLogin) (target : DatabaseTarget) :
    ConnectionTarget :=
  { host, database := target.name, user := target.user, password := target.password,
    params := admin.params }

/-- Makes the manager role a member of the owning role, unless the server refuses it. -/
def joinManager (session : Session) (target : DatabaseTarget) : Program σ SqlError Unit := do
  match ← Program.attempt (p.server.grantRole session target.user p.managerRole) with
  | .ok () => pure ()
  | .error e => if e.code? = some invalidGrant then pure () else throw e

/-- Makes the roles. -/
def provideRoles (session : Session) (target : DatabaseTarget) : Program σ SqlError Unit := do
  let isManager := target.user = p.managerRole
  p.server.ensureRole session p.managerRole true [] none
  p.server.ensureRole session target.user true (if isManager then [] else [p.managerRole])
    (some target.password)
  if !isManager then p.joinManager session target

/-- Gives a shared database to the manager role.  The owning role becomes a member of the role that
owned the database before. -/
def shareDatabase (session : Session) (target : DatabaseTarget) : Program σ SqlError Unit := do
  let previous ← p.server.databaseOwner session target.name
  p.server.alterDatabaseOwner session target.name p.managerRole
  match previous.filter fun owner => owner ≠ target.user ∧ owner ≠ p.managerRole with
  | some owner => p.server.grantRole session owner target.user
  | none => pure ()

/-- Makes the roles and the database, and gives the database its owner. -/
def provideOwner (session : Session) (target : DatabaseTarget) : Program σ SqlError Unit := do
  p.provideRoles session target
  p.server.ensureDatabase session target.name
  if target.shared then p.shareDatabase session target
  else p.server.alterDatabaseOwner session target.name target.user

/-- Makes the schema, and takes every right from the public. -/
def provideSchema (session : Session) (target : DatabaseTarget) : Program σ SqlError Unit := do
  p.server.ensureSchema session target.name
  p.server.revokePublic session target.name

/-- Runs a program in a session.  The session is closed when the program succeeds. -/
def withSession (target : ConnectionTarget) (work : Session → Program σ SqlError Unit) :
    Program σ SqlError Unit := do
  let session ← p.server.connect target
  work session
  p.server.close session

/-- Refuses a target with a name that may not stand in a statement. -/
def checkNames (target : DatabaseTarget) (extensions : List String) : Except SqlError Unit := do
  let _ ← Identifier.of target.name
  let _ ← Identifier.of target.user
  let _ ← Identifier.of p.managerRole
  let _ ← Identifier.ofAll extensions

/-- Makes a database on a host. -/
def provide (host : String) (admin : AdminLogin) (target : DatabaseTarget)
    (extensions : List String) : Program σ SqlError Unit := do
  Program.ofExcept (p.checkNames target extensions)
  p.withSession (.admin host p.adminDatabase admin) fun session => p.provideOwner session target
  p.withSession (ownerConnection host admin target) fun session => p.provideSchema session target
  if !extensions.isEmpty then
    p.withSession (.admin host target.name admin) fun session =>
      p.server.ensureExtensions session target.name extensions

end Provisioner

end PgSteward
