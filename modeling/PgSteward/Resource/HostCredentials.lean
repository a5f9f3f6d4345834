import PgSteward.Reference.Basic

/-!
# Host credentials

A host credentials resource names a host and the login of its administrator.
-/

namespace PgSteward

/-- What a host credentials resource holds. -/
structure HostCredentialsSpec where
  /-- The host with its port. -/
  host : Reference
  /-- The role of the administrator. -/
  user : Reference
  /-- The password of the administrator. -/
  password : Reference
  /-- Parameters of the connection, as `key=value` words. -/
  params : Option Reference := none
deriving DecidableEq, Repr

namespace HostCredentialsSpec

/-- Decodes host credentials. -/
def decode : Decoder HostCredentialsSpec := fun j => do
  let r ← Record.of "PostgreSQLHostCredentialsSpec" 4 j
  let host := r.required 0 "host" Reference.decode
  let user := r.required 1 "user" Reference.decode
  let password := r.required 2 "password" Reference.decode
  let params := r.optional 3 "params" (Json.nullable Reference.decode)
  r.check [host.faults, user.faults, password.faults, params.faults]
  return {
    host := ← host.get
    user := ← user.get
    password := ← password.get
    params := params.getD none }

/-- Encodes host credentials. -/
def encode (h : HostCredentialsSpec) : Json :=
  .object (written "host" h.host.encode ++
    written "user" h.user.encode ++
    written "password" h.password.encode ++
    writtenIf "params" Reference.encode h.params)

end HostCredentialsSpec

end PgSteward
