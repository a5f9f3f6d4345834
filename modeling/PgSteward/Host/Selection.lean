import PgSteward.Error
import PgSteward.NameMap
import PgSteward.Postgres.Connection
import PgSteward.Reference.Resolver
import PgSteward.Resource.HostCredentials

/-!
# Host selection

A resource says in one of two ways on which host it lives: by a reference to the host, or by the
name of a host credentials resource, never by both.  For a host that is named directly the login of
the administrator is one of those that were given at the start; host credentials bring their own.
-/

namespace PgSteward

/-- How a resource names its host. -/
inductive HostSource where
  /-- By a reference to the host. -/
  | direct (reference : Reference)
  /-- By the name of a host credentials resource. -/
  | credentials (name : String)
deriving DecidableEq, Repr

/-- How a resource names its host.  An empty reference or name counts as none. -/
def HostSource.of (host : Option Reference) (hostCredentials : Option String) :
    Except Error HostSource :=
  match host.filter fun r => !r.isEmpty, hostCredentials.filter fun n => !n.isEmpty with
  | some reference, none => .ok (.direct reference)
  | none, some name => .ok (.credentials name)
  | _, _ => .error (.invalid "must specify exactly one of host and hostCredentials")

/-- Finds hosts and their administrators over surroundings `σ`. -/
structure HostSelector (σ : Type) where
  /-- The logins given at the start, by their hosts. -/
  logins : NameMap AdminLogin
  /-- The host credentials of a name in a namespace, if there are such. -/
  credentials : (space name : String) → Program σ Error (Option HostCredentialsSpec)
  /-- Finds the texts of references. -/
  resolver : Resolver σ

/-- The login given at the start for a host. -/
def loginFor (logins : NameMap AdminLogin) (host : String) : Except Error AdminLogin :=
  match logins[host]? with
  | some login => .ok login
  | none => .error (.invalid s!"unknown credentials for host {host}")

namespace HostSelector

variable {σ : Type} (s : HostSelector σ)

/-- The text of the reference in a field. -/
def resolve (space field : String) (reference : Reference) : Program σ Error String :=
  Program.mapError (Error.reference field) (s.resolver.resolve space reference)

/-- The text of the reference in a field, or another where it has no value. -/
def resolveOr (default space field : String) (reference : Reference) : Program σ Error String := do
  match ← Program.attempt (s.resolver.resolve space reference) with
  | .ok value => return value
  | .error .noValue => return default
  | .error e => throw (.reference field e)

/-- The host credentials of a name. -/
def fetch (space name : String) : Program σ Error HostCredentialsSpec := do
  match ← s.credentials space name with
  | some spec => return spec
  | none => throw (.invalid s!"host credentials {space}/{name} not found")

/-- The login that host credentials bring, with their host. -/
def loginOf (space : String) (spec : HostCredentialsSpec) :
    Program σ Error (String × AdminLogin) := do
  let host ← s.resolve space "host" spec.host
  let user ← s.resolve space "user" spec.user
  let password ← s.resolve space "password" spec.password
  let params ←
    match spec.params with
    | some params => s.resolveOr "" space "params" params
    | none => pure ""
  return (host, { user, password, params })

/-- The host of a resource, and the login of its administrator. -/
def select (space : String) (host : Option Reference) (hostCredentials : Option String) :
    Program σ Error (String × AdminLogin) := do
  match ← Program.ofExcept (HostSource.of host hostCredentials) with
  | .direct reference =>
      let host ← s.resolve space "host" reference
      let login ← Program.ofExcept (loginFor s.logins host)
      return (host, login)
  | .credentials name =>
      let spec ← s.fetch space name
      s.loginOf space spec

/-- The host of a resource, for which there need not be a login. -/
def hostOf (space : String) (host : Option Reference) (hostCredentials : Option String) :
    Program σ Error String := do
  match ← Program.ofExcept (HostSource.of host hostCredentials) with
  | .direct reference => s.resolve space "host" reference
  | .credentials name =>
      let spec ← s.fetch space name
      s.resolve space "host" spec.host

end HostSelector

end PgSteward
