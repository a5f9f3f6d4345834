import PgSteward.Access.Grants
import PgSteward.Kube.Client
import PgSteward.Policy.Shard
import PgSteward.Postgres.Provision

/-!
# What controllers work with

A controller looks at a resource, makes the world follow it, and says when to look again.
Everything it needs comes in one record: how to find hosts and texts, the database server, the
grants and the policies of users, the Kubernetes API and the instant at which it works.
-/

namespace PgSteward

/-- What controllers work with, over surroundings `σ`. -/
structure Services (σ : Type) where
  /-- Finds hosts and texts. -/
  selector : HostSelector σ
  /-- The database server. -/
  server : Server σ
  /-- The role that administers all databases. -/
  managerRole : String
  /-- The database that administrators connect to. -/
  adminDatabase : String
  /-- Gives users their access. -/
  granter : Granter σ
  /-- Keeps the statements of users. -/
  sharder : Sharder σ
  /-- Sends requests to the Kubernetes API. -/
  kube : KubeClient σ
  /-- The seconds after which every resource is looked at again. -/
  resyncPeriod : Nat
  /-- The present. -/
  now : Instant

namespace Services

variable {σ : Type} (s : Services σ)

/-- Makes databases. -/
def provisioner : Provisioner σ where
  server := s.server
  managerRole := s.managerRole
  adminDatabase := s.adminDatabase

/-- The text of the reference in a field, which must be there. -/
def require (space field : String) : Option Reference → Program σ Error String
  | none => throw (.reference field .noValue)
  | some reference => s.selector.resolve space field reference

end Services

/-- The namespace and the name of a resource. -/
def ObjectMeta.key (m : ObjectMeta) : Except Error (String × String) :=
  match m.space, m.name with
  | some space, some name => .ok (space, name)
  | _, _ => .error (.invalid "resource has no namespace or name")

end PgSteward
