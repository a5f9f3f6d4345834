import PgSteward.Access.RequiredRoles
import PgSteward.Host.Selection
import PgSteward.Postgres.Server

/-!
# Convergence

`Converger.converge` makes the roles of a login role those that its planned accesses need, on every
host that has a login and on every host of the plan, one after the other.  A host without a planned
access takes the managed roles away.

On a host the roles to give come before those to take away, so an access that changes its role is
not interrupted as long as the new role can be given.  A managed role is prepared in its database
before it is given.  What fails for one role or on one host does not hold back the others.
-/

namespace PgSteward

/-- Works on the roles of logins over surroundings `σ`. -/
structure Converger (σ : Type) where
  server : Server σ
  /-- The logins of the administrators, by their hosts. -/
  logins : NameMap AdminLogin
  /-- The roles that every login role with an access gets. -/
  staticRoles : List String
  /-- The database that administrators connect to. -/
  adminDatabase : String

namespace Converger

variable {σ : Type} (c : Converger σ)

/-- The planned accesses of each host, none for a host without. -/
def byHost (access : AccessMap) : NameMap (List PlannedAccess) :=
  access.all.foldl (fun m a => NameMap.push m a.host a)
    (NameMap.ofPairs (c.logins.keys.map fun host => (host, [])))

/-- Gives a managed role its privileges on the schemas of its database. -/
def grantSchemas (session : Session) (role : String) (grant : ManagedGrant) :
    List String → Program σ SqlError Unit
  | [] => pure ()
  | schema :: rest => do
      c.server.grantSchemaUsage session role schema
      c.server.grantTablePrivileges session role schema grant.privileges
      grantSchemas session role grant rest

/-- Makes a managed role in its database. -/
def prepare (host : String) (admin : AdminLogin) (role : String) (grant : ManagedGrant) :
    Program σ SqlError Unit := do
  let session ← c.server.connect (.admin host grant.database admin)
  c.server.ensureRole session role false [] none
  c.server.grantConnect session grant.database role
  c.grantSchemas session role grant grant.schemas.toList
  c.server.close session

/-- Gives a role to a login role. -/
def give (session : Session) (host : String) (admin : AdminLogin) (login role : String)
    (grant : Option ManagedGrant) : Program σ SqlError Unit := do
  match grant with
  | some grant => c.prepare host admin role grant
  | none => pure ()
  c.server.grantRole session role login

/-- The roles that a login role needs on a host.  A login role with an access is created. -/
def require (session : Session) (login : String) (accesses : List PlannedAccess) :
    Program σ SqlError RequiredRoles := do
  if accesses.isEmpty then return ∅
  c.server.ensureRole session login true [] none
  return RequiredRoles.of c.staticRoles accesses

/-- The steps of a change of roles, those to give first. -/
def steps (session : Session) (host : String) (admin : AdminLogin) (login : String)
    (required : RequiredRoles) (change : RoleChange) : List (Program σ SqlError Unit) :=
  change.add.map (fun role => c.give session host admin login role (required[role]?.join)) ++
    change.remove.map fun role => c.server.revokeRole session role login

/-- Makes the roles of a login role on a host those that it needs. -/
def convergeHost (login host : String) (accesses : List PlannedAccess) : Program σ Error Unit := do
  let admin ← Program.ofExcept (loginFor c.logins host)
  let errors ← Program.mapError Error.sql do
    let session ← c.server.connect (.admin host c.adminDatabase admin)
    let required ← c.require session login accesses
    let existing ← c.server.roleMemberships session login
    let errors ← Program.gather
      (c.steps session host admin login required (RoleChange.of existing required))
    c.server.close session
    return errors
  Program.failIf (Error.combine (errors.map .sql))

/-- Makes the roles of a login role on all hosts those that it needs. -/
def converge (login : String) (access : AccessMap) : Program σ Error Unit := do
  let errors ← Program.gather
    ((c.byHost access).toList.map fun h => c.convergeHost login h.1 h.2)
  Program.failIf (Error.combine errors)

end Converger

end PgSteward
