import PgSteward.Controller.Services

/-!
# Settings

The settings of the operator, and the services that controllers get from them when the surroundings
are given.
-/

namespace PgSteward

/-- How the policy service is logged in to. -/
structure AwsLogin where
  /-- The name of a profile. -/
  profile : Option String := none
  accessKeyId : Option String := none
  secretAccessKey : Option String := none
deriving DecidableEq, Repr

/-- The settings of the operator. -/
structure Settings where
  /-- The logins of administrators by their hosts. -/
  logins : NameMap AdminLogin := ∅
  /-- What is allowed on all hosts. -/
  flags : AccessFlags := {}
  /-- The roles that every user with an access gets. -/
  staticRoles : List String := ["rds_iam"]
  /-- The start of the names of login roles. -/
  rolePrefix : String := "iam_developer_"
  /-- The role that administers all databases. -/
  managerRole : String := "postgresql_operator_manager"
  /-- The database that administrators connect to. -/
  adminDatabase : String := "postgres"
  /-- The shard of policies. -/
  shard : ShardSettings := { rolePrefix := "iam_developer_" }
  /-- How the policy service is logged in to. -/
  aws : AwsLogin := {}
  /-- The seconds after which every resource is looked at again. -/
  resyncPeriod : Nat := 36000
  /-- The seconds after which every user is looked at again. -/
  syncInterval : Nat := 300
deriving DecidableEq

/-- What the operator finds around it. -/
structure Surroundings (σ : Type) where
  /-- The database server. -/
  server : Server σ
  /-- Finds the texts of references. -/
  resolver : Resolver σ
  /-- The host credentials of a name in a namespace. -/
  hostCredentials : (space name : String) → Program σ Error (Option HostCredentialsSpec)
  /-- The databases of a namespace. -/
  inventory : (space : String) → Program σ Error (List DatabaseSpec)
  policies : PolicyStore σ
  /-- The Kubernetes API. -/
  kube : KubeClient σ

namespace Settings

variable {σ : Type} (s : Settings) (around : Surroundings σ)

/-- Finds hosts and texts. -/
def selector : HostSelector σ where
  logins := s.logins
  credentials := around.hostCredentials
  resolver := around.resolver

/-- Plans the intents of users. -/
def planner : Planner σ where
  selector := s.selector around
  inventory := around.inventory
  flags := s.flags

/-- Makes the roles of users follow their plans. -/
def converger : Converger σ where
  server := around.server
  logins := s.logins
  staticRoles := s.staticRoles
  adminDatabase := s.adminDatabase

/-- The services of controllers at an instant. -/
def services (now : Instant) : Services σ where
  selector := s.selector around
  server := around.server
  managerRole := s.managerRole
  adminDatabase := s.adminDatabase
  granter := { planner := s.planner around, converger := s.converger around
               rolePrefix := s.rolePrefix }
  sharder := { store := around.policies, settings := s.shard }
  kube := around.kube
  resyncPeriod := s.resyncPeriod
  now := now

end Settings

end PgSteward
