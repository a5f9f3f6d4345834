import PgSteward.NameMap
import PgSteward.Postgres.Server

/-!
# Catalogs

A catalog is what a database server knows: its roles, which roles they are members of, its databases
and schemas with their owners, and the extensions that are installed.  Two catalogs are equal when
they know the same.

`Catalog.run` applies a command to a catalog.  A grant of several roles goes through them in order
and keeps what it has done when one of them is refused.
-/

namespace PgSteward

/-- What a database server knows. -/
structure Catalog where
  roles : NameSet := ∅
  /-- The roles that a role is a member of. -/
  memberships : NameMap NameSet := ∅
  /-- The databases with their owners. -/
  databases : NameMap String := ∅
  /-- The schemas of each database with their owners. -/
  schemas : NameMap (NameMap String) := ∅
  extensions : NameSet := ∅
deriving DecidableEq

/-- What a statement does to a catalog. -/
inductive Command where
  /-- Creates a role as a member of other roles. -/
  | createRole (name : String) (roles : List String)
  | createDatabase (name : String)
  /-- Sets the owner of a database. -/
  | alterDatabaseOwner (name owner : String)
  | createSchema (name : String)
  /-- Installs an extension. -/
  | createExtension (name : String)
  /-- Makes a role a member of other roles. -/
  | grantRoles (roles : List String) (member : String)
  /-- Grants nothing, for want of a member. -/
  | malformedGrant (statement : String)
  /-- Ends a membership. -/
  | revokeRole (role member : String)
  /-- Changes nothing that the catalog knows. -/
  | other
deriving DecidableEq, Repr

namespace Catalog

/-- The roles that a role is a member of. -/
def rolesOf (c : Catalog) (member : String) : NameSet := c.memberships.getD member ∅

/-- The owner of a schema of a database. -/
def schemaOwner? (c : Catalog) (database schema : String) : Option String :=
  c.schemas[database]?.bind fun schemas => schemas[schema]?

/-- The catalog with a membership more. -/
def addMembership (c : Catalog) (member role : String) : Catalog :=
  { c with memberships := c.memberships.insert member ((c.rolesOf member).insert role) }

/-- The catalog without a membership. -/
def dropMembership (c : Catalog) (member role : String) : Catalog :=
  match c.memberships[member]? with
  | none => c
  | some roles => { c with memberships := c.memberships.insert member (roles.erase role) }

/-- The catalog with a schema more. -/
def addSchema (c : Catalog) (database schema owner : String) : Catalog :=
  { c with schemas := c.schemas.insert database ((c.schemas.getD database ∅).insert schema owner) }

/-- The error of an object that is there already. -/
def alreadyThere (code kind name : String) : SqlError :=
  .database code s!"{kind} \"{name}\" already exists"

/-- The error of a membership that would go in a circle. -/
def circular (member role : String) : SqlError :=
  .database "0LP01" s!"role \"{member}\" is a member of role \"{role}\""

/-- Makes a role a member of other roles, in order, up to the first that is refused.  No role is a
member of itself; `strict` also refuses a role that is a member of the new member. -/
def grant (strict : Bool) (member : String) : List String → Program Catalog SqlError Unit
  | [] => pure ()
  | role :: rest => do
      let c ← get
      if role = member then throw (circular member role)
      if strict && (c.rolesOf role).contains member then throw (circular member role)
      set (c.addMembership member role)
      grant strict member rest

/-- Applies a command that a role gives in a database. -/
def run (user database : String) (strict : Bool) : Command → Program Catalog SqlError Unit
  | .createRole name roles => do
      let c ← get
      if c.roles.contains name then throw (alreadyThere "42710" "role" name)
      set (roles.foldl (fun c role => c.addMembership name role)
        { c with roles := c.roles.insert name })
  | .createDatabase name => do
      let c ← get
      if c.databases.contains name then throw (alreadyThere "42P04" "database" name)
      set { c with databases := c.databases.insert name user }
  | .alterDatabaseOwner name owner =>
      modify fun c => { c with databases := c.databases.insert name owner }
  | .createSchema name => do
      let c ← get
      if (c.schemaOwner? database name).isSome then throw (alreadyThere "42P06" "schema" name)
      set (c.addSchema database name user)
  | .createExtension name => modify fun c => { c with extensions := c.extensions.insert name }
  | .grantRoles roles member => grant strict member roles
  | .malformedGrant statement => throw (.database "42601" statement)
  | .revokeRole role member => modify fun c => c.dropMembership member role
  | .other => pure ()

/-- The answer to a query. -/
def answer (c : Catalog) : Query → List String
  | .databaseOwner database => c.databases[database]?.toList
  | .memberships role => (c.rolesOf role).toList
  | .extensions => c.extensions.toList

end Catalog

end PgSteward
