import PgSteward.Access.Basic
import PgSteward.Postgres.Statement

/-!
# Required roles

A login role holds static roles and managed roles.  A managed role belongs to a database and is
named after it, with a suffix that tells whether it reads or writes; it carries the privileges on
the schemas of the accesses.  Of several accesses to one database the greatest privilege counts.

`RoleChange.of` compares the roles that a login role has with those that it needs.  Only roles whose
names are those of managed roles are ever taken away.
-/

namespace PgSteward

/-- The end of the names of roles that read. -/
def readSuffix : String := "_read"

/-- The end of the names of roles that write. -/
def readWriteSuffix : String := "_readwrite"

/-- The role that reads a database. -/
def readRole (database : String) : String := database ++ readSuffix

/-- The role that writes a database. -/
def readWriteRole (database : String) : String := database ++ readWriteSuffix

/-- Whether the name of a role is that of a managed role. -/
def isManagedRole (role : String) : Bool :=
  readSuffix.toList.isSuffixOf role.toList || readWriteSuffix.toList.isSuffixOf role.toList

/-- What the accesses to one database come to. -/
structure DatabaseNeed where
  /-- The greatest privilege. -/
  privilege : Privilege := .read
  /-- Whether one of them writes with the extended privileges. -/
  extended : Bool := false
  schemas : NameSet := ∅
deriving DecidableEq

namespace DatabaseNeed

/-- What the accesses come to with one more. -/
def add (n : DatabaseNeed) (a : PlannedAccess) : DatabaseNeed :=
  { privilege := n.privilege.max a.privilege
    extended := n.extended || (a.privilege = .write && a.extended)
    schemas := n.schemas.insert a.schema }

/-- The managed role of a database. -/
def role (n : DatabaseNeed) (database : String) : String :=
  match n.privilege with
  | .read => readRole database
  | .write => readWriteRole database

/-- The privileges of the managed role. -/
def privileges (n : DatabaseNeed) : TablePrivileges :=
  match n.privilege, n.extended with
  | .read, _ => .read
  | .write, false => .write
  | .write, true => .extendedWrite

end DatabaseNeed

/-- What the accesses to each database come to. -/
def needsOf (accesses : List PlannedAccess) : NameMap DatabaseNeed :=
  accesses.foldl (fun m a => m.insert a.database ((m.getD a.database {}).add a)) ∅

/-- What a managed role carries. -/
structure ManagedGrant where
  database : String
  schemas : NameSet
  /-- The privileges on the tables of the schemas. -/
  privileges : TablePrivileges
deriving DecidableEq

/-- The roles that a login role needs.  A static role carries nothing of its own. -/
abbrev RequiredRoles := NameMap (Option ManagedGrant)

namespace RequiredRoles

/-- The roles with the managed role of a database. -/
def addManaged (required : RequiredRoles) (database : String) (need : DatabaseNeed) :
    RequiredRoles :=
  required.insert (need.role database)
    (some { database, schemas := need.schemas, privileges := need.privileges })

/-- The static roles. -/
def ofStatic (roles : List String) : RequiredRoles :=
  roles.foldl (fun required role => required.insert role none) ∅

/-- The roles that a login role with some accesses needs. -/
def of (static : List String) (accesses : List PlannedAccess) : RequiredRoles :=
  (needsOf accesses).toList.foldl (fun required n => addManaged required n.1 n.2) (ofStatic static)

end RequiredRoles

/-- The roles to give to a login role, and those to take away. -/
structure RoleChange where
  /-- The roles to give. -/
  add : List String := []
  /-- The roles to take away. -/
  remove : List String := []
deriving DecidableEq, Repr

/-- The change from the roles that a login role has to those that it needs, both in order. -/
def RoleChange.of (existing : List String) (required : RequiredRoles) : RoleChange where
  add := required.keys.filter fun role => !existing.contains role
  remove := (existing.filter fun role => isManagedRole role && !required.contains role).mergeSort

end PgSteward
