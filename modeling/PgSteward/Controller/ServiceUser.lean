import PgSteward.Controller.Services

/-!
# Service users

A service user is a login role with a password that does not expire and with memberships in other
roles.  A membership that a resource does not list any more stays.
-/

namespace PgSteward.Services

variable {σ : Type} (s : Services σ)

/-- Makes the login role of a service user, in a session. -/
def provideLogin (session : Session) (name password : String) (roles : List String) :
    Program σ SqlError Unit := do
  s.server.ensureRole session name true roles (some password)
  s.server.alterService session name password

/-- Makes the login role of a service user, and answers with its host. -/
def provideServiceUser (space : String) (spec : ServiceUserSpec) : Program σ Error String := do
  if spec.name.isEmpty then throw (.invalid "name is required")
  let (host, admin) ← s.selector.select space (some spec.host) none
  let password ← s.require space "password" spec.password
  Program.mapError Error.sql
    (s.provisioner.withSession (.admin host s.adminDatabase admin) fun session =>
      s.provideLogin session spec.name password (spec.roles.map (·.roleName)))
  return host

/-- Looks at a service user resource. -/
def reconcileServiceUser (r : ServiceUserResource) : Program σ Error Action := do
  let (space, _) ← Program.ofExcept r.metadata.key
  match ← Program.attempt (s.provideServiceUser space r.spec) with
  | .ok _ => return .requeue s.resyncPeriod
  | .error e => return e.action

end PgSteward.Services
