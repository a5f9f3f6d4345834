import PgSteward.Controller.Services

/-!
# Host credentials

Host credentials hold data for the other resources, so nothing is done about them.
-/

namespace PgSteward

/-- Looks at a host credentials resource. -/
def reconcileHostCredentials (r : HostCredentialsResource) : Except Error Action := do
  let _ ← r.metadata.key
  return .awaitChange

end PgSteward
