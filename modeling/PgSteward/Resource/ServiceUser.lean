import PgSteward.Reference.Basic

/-!
# Service users

A service user resource asks for a login role with a password and with memberships in other roles.
-/

namespace PgSteward

/-- A role that a service user is a member of. -/
structure ServiceUserRole where
  roleName : String
deriving DecidableEq, Repr

/-- What a service user resource asks for. -/
structure ServiceUserSpec where
  /-- The name of the login role. -/
  name : String
  host : Reference
  password : Option Reference := none
  /-- The memberships. -/
  roles : List ServiceUserRole := []
deriving DecidableEq, Repr

/-! ## Wire form -/

/-- Decodes a membership. -/
def ServiceUserRole.decode : Decoder ServiceUserRole := fun j => do
  let r ← Record.of "ServiceUserRole" 1 j
  let roleName := r.required 0 "roleName" Json.toText
  r.check [roleName.faults]
  return { roleName := ← roleName.get }

/-- Encodes a membership. -/
def ServiceUserRole.encode (r : ServiceUserRole) : Json := .object [("roleName", .text r.roleName)]

namespace ServiceUserSpec

/-- Decodes a service user. -/
def decode : Decoder ServiceUserSpec := fun j => do
  let r ← Record.of "PostgreSQLServiceUserSpec" 4 j
  let name := r.required 0 "name" Json.toText
  let host := r.required 1 "host" Reference.decode
  let password := r.optional 2 "password" (Json.nullable Reference.decode)
  let roles := r.optional 3 "roles" (Json.toList ServiceUserRole.decode)
  r.check [name.faults, host.faults, password.faults, roles.faults]
  return {
    name := ← name.get
    host := ← host.get
    password := password.getD none
    roles := roles.getD [] }

/-- Encodes a service user. -/
def encode (u : ServiceUserSpec) : Json :=
  .object (written "name" (.text u.name) ++
    written "host" u.host.encode ++
    writtenIf "password" Reference.encode u.password ++
    written "roles" (.list (u.roles.map ServiceUserRole.encode)))

end ServiceUserSpec

end PgSteward
