import PgSteward.Kube.Request
import PgSteward.Policy.Aws
import PgSteward.Postgres.Server

/-!
# Events

What a rehearsal records: every call to a service, in order, and whether it failed.
-/

namespace PgSteward

/-- A call to a policy store. -/
inductive PolicyCall where
  /-- Lists the policies under a path. -/
  | list (path : String)
  | create (name path : String) (document : PolicyDocument)
  | createVersion (arn : String) (document : PolicyDocument)
  | deleteVersion (arn versionId : String)
  /-- Lists the roles that a policy is attached to. -/
  | attachedRoles (arn : String)
  /-- Attaches a policy. -/
  | attach (role arn : String)
  /-- Detaches a policy. -/
  | detach (role arn : String)
  /-- Deletes a policy. -/
  | delete (arn : String)
deriving DecidableEq

namespace PolicyCall

/-- The name of a call. -/
def word : PolicyCall → String
  | .list _ => "list_policies"
  | .create .. => "create_policy"
  | .createVersion .. => "create_policy_version"
  | .deleteVersion .. => "delete_policy_version"
  | .attachedRoles _ => "attached_roles"
  | .attach .. => "attach_role_policy"
  | .detach .. => "detach_role_policy"
  | .delete _ => "delete_policy"

/-- What a call is about. -/
def detail : PolicyCall → String
  | .list path => path
  | .create name _ _ => name
  | .createVersion arn _ => arn
  | .deleteVersion arn _ => arn
  | .attachedRoles arn => arn
  | .attach role _ => role
  | .detach role _ => role
  | .delete arn => arn

end PolicyCall

/-- A call to a service.  `failed` is the code of the failure, or the word `driver` for one
without a code. -/
inductive Event where
  | connect (target : ConnectionTarget) (failed : Option String)
  | statement (text : String) (failed : Option String)
  | query (query : Query) (failed : Option String)
  /-- The end of a session. -/
  | close (session : Session) (failed : Option String)
  /-- A listing of the databases of a namespace. -/
  | inventory (space : String)
  /-- A call to the policy store. -/
  | policy (call : PolicyCall) (failed : Bool)
  /-- A call to the policy service. -/
  | aws (call : AwsCall)
  /-- A request to the Kubernetes API, with the status of its response. -/
  | kube (request : KubeRequest) (status : Nat)

/-- The word for the failure of work on a server. -/
def SqlError.word (e : SqlError) : String := e.code?.getD "driver"

end PgSteward
