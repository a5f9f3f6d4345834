import PgSteward.Policy.Reader
import PgSteward.Policy.Store

/-!
# Policies in AWS

The policy service answers one call at a time.  Listings come in pages: each page but the last has a
marker, which the next call hands back.  `AwsEndpoint.store` joins the pages and reads the document
of the default version of every policy it lists.

An error of a code that the service documents for a call is an exception of that name, and any other
is unhandled.  What an endpoint has pending bounds the number of pages.
-/

namespace PgSteward

/-- A call to the policy service. -/
inductive AwsCall where
  /-- Lists a page of the policies under a path. -/
  | listPolicies (path : String) (marker : Option String)
  /-- Reads a version of a policy. -/
  | getPolicyVersion (arn versionId : String)
  | createPolicy (name path document : String)
  /-- Creates a version and makes it the default. -/
  | createPolicyVersion (arn document : String)
  | deletePolicyVersion (arn versionId : String)
  /-- Lists a page of the roles that a policy is attached to. -/
  | listEntities (arn : String) (marker : Option String)
  | attachRolePolicy (role arn : String)
  | detachRolePolicy (role arn : String)
  | deletePolicy (arn : String)
deriving DecidableEq, Repr

namespace AwsCall

/-- The name of a call. -/
def action : AwsCall → String
  | .listPolicies .. => "ListPolicies"
  | .getPolicyVersion .. => "GetPolicyVersion"
  | .createPolicy .. => "CreatePolicy"
  | .createPolicyVersion .. => "CreatePolicyVersion"
  | .deletePolicyVersion .. => "DeletePolicyVersion"
  | .listEntities .. => "ListEntitiesForPolicy"
  | .attachRolePolicy .. => "AttachRolePolicy"
  | .detachRolePolicy .. => "DetachRolePolicy"
  | .deletePolicy .. => "DeletePolicy"

/-- The marker of a page that is not the first. -/
def markerParams : Option String → List (String × String)
  | none => []
  | some marker => [("Marker", marker)]

/-- The parameters of a call. -/
def params : AwsCall → List (String × String)
  | .listPolicies path marker =>
      [("Scope", "Local"), ("PathPrefix", path)] ++ markerParams marker
  | .getPolicyVersion arn versionId => [("PolicyArn", arn), ("VersionId", versionId)]
  | .createPolicy name path document =>
      [("PolicyName", name), ("Path", path), ("PolicyDocument", document)]
  | .createPolicyVersion arn document =>
      [("PolicyArn", arn), ("PolicyDocument", document), ("SetAsDefault", "true")]
  | .deletePolicyVersion arn versionId => [("PolicyArn", arn), ("VersionId", versionId)]
  | .listEntities arn marker =>
      [("PolicyArn", arn), ("EntityFilter", "Role")] ++ markerParams marker
  | .attachRolePolicy role arn => [("RoleName", role), ("PolicyArn", arn)]
  | .detachRolePolicy role arn => [("RoleName", role), ("PolicyArn", arn)]
  | .deletePolicy arn => [("PolicyArn", arn)]

/-- The codes of the errors that are documented for a call, besides `ServiceFailure`. -/
def documented : AwsCall → List String
  | .listPolicies .. => []
  | .getPolicyVersion .. | .listEntities .. => ["InvalidInput", "NoSuchEntity"]
  | .createPolicy .. =>
      ["ConcurrentModification", "EntityAlreadyExists", "InvalidInput", "LimitExceeded",
        "MalformedPolicyDocument"]
  | .createPolicyVersion .. =>
      ["InvalidInput", "LimitExceeded", "MalformedPolicyDocument", "NoSuchEntity"]
  | .deletePolicyVersion .. | .deletePolicy .. =>
      ["DeleteConflict", "InvalidInput", "LimitExceeded", "NoSuchEntity"]
  | .attachRolePolicy .. =>
      ["InvalidInput", "LimitExceeded", "NoSuchEntity", "PolicyNotAttachable",
        "UnmodifiableEntity"]
  | .detachRolePolicy .. =>
      ["InvalidInput", "LimitExceeded", "NoSuchEntity", "UnmodifiableEntity"]

end AwsCall

/-- The answer to a call. -/
inductive AwsAnswer where
  /-- A result, with its members by their names. -/
  | result (value : Json)
  | error (code message : Option String)

/-- The error that an error answer to a call stands for. -/
def AwsCall.failure (call : AwsCall) (code message : Option String) : IamError :=
  match code with
  | none => .service (.unhandled none)
  | some code =>
      if !(call.documented.contains code || code = "ServiceFailure") then
        .service (.unhandled (some code))
      else if code = "NoSuchEntity" then .noSuchEntity (message.getD "")
      else .service (.exception (code ++ "Exception") message)

/-- The policy service as programs over surroundings `σ` reach it. -/
structure AwsEndpoint (σ : Type) where
  /-- Makes a call. -/
  send : AwsCall → Program σ IamError AwsAnswer
  /-- A bound on the number of results that are still to come. -/
  pending : σ → Nat

namespace AwsEndpoint

variable {σ : Type} (e : AwsEndpoint σ)

/-- The result of a call. -/
def call (c : AwsCall) : Program σ IamError Json := do
  match ← e.send c with
  | .result value => return value
  | .error code message => throw (c.failure code message)

/-! ## Parts of a result -/

/-- The text of a member. -/
def textAt? (name : String) (j : Json) : Option String := (j.member? name).bind Json.text?

/-- The items of a member; an absent one has none. -/
def itemsAt (name : String) (j : Json) : List Json :=
  match j.member? name with
  | some (.list items) => items
  | _ => []

/-- Whether a member says so. -/
def saysAt (name : String) (j : Json) : Bool :=
  match j.member? name with
  | some (.bool b) => b
  | some (.text s) => s = "true"
  | _ => false

/-- A part of a response that must be there. -/
def need {α : Type} (policy part : String) : Option α → Program σ IamError α
  | some a => pure a
  | none => throw (.incomplete policy part)

/-! ## Operations -/

/-- A policy of a listing, with the document of its default version. -/
def managed (listed : Json) : Program σ IamError ManagedPolicy := do
  let name := (textAt? "PolicyName" listed).getD ""
  let arn ← need name "arn" (textAt? "Arn" listed)
  let versionId ← need name "default version" (textAt? "DefaultVersionId" listed)
  let result ← e.call (.getPolicyVersion arn versionId)
  let text ← need name "document" ((result.member? "PolicyVersion").bind (textAt? "Document"))
  let document ← Program.ofExcept (PolicyDocument.ofText name text)
  return { name, arn, versionId, document }

/-- The policies of a page. -/
def managedAll : List Json → Program σ IamError (List ManagedPolicy)
  | [] => pure []
  | listed :: rest => do
      let policy ← e.managed listed
      let others ← managedAll rest
      return policy :: others

/-- The policies from a page on. -/
def listFrom (path : String) :
    (pages : Nat) → Option String → Program σ IamError (List ManagedPolicy)
  | 0, _ => pure []
  | pages + 1, marker => do
      let result ← e.call (.listPolicies path marker)
      let here ← e.managedAll (itemsAt "Policies" result)
      match textAt? "Marker" result with
      | some next => do
          let others ← listFrom path pages (some next)
          return here ++ others
      | none => return here

/-- The policies under a path. -/
def list (path : String) : Program σ IamError (List ManagedPolicy) := do
  e.listFrom path (e.pending (← get) + 1) none

/-- Creates a policy. -/
def create (name path : String) (document : PolicyDocument) :
    Program σ IamError ManagedPolicy := do
  let result ← e.call (.createPolicy name path document.text)
  let policy ← need name "policy" (result.member? "Policy")
  let arn ← need name "arn" (textAt? "Arn" policy)
  return { name, arn, versionId := (textAt? "DefaultVersionId" policy).getD "v1", document }

/-- Creates a version. -/
def createVersion (arn : String) (document : PolicyDocument) : Program σ IamError String := do
  let result ← e.call (.createPolicyVersion arn document.text)
  need arn "version id" ((result.member? "PolicyVersion").bind (textAt? "VersionId"))

/-- The names of the roles of a page. -/
def roleNames (result : Json) : List String :=
  (itemsAt "PolicyRoles" result).filterMap (textAt? "RoleName")

/-- The roles that a policy is attached to, from a page on. -/
def rolesFrom (arn : String) : (pages : Nat) → Option String → Program σ IamError (List String)
  | 0, _ => pure []
  | pages + 1, marker => do
      let result ← e.call (.listEntities arn marker)
      match textAt? "Marker" result, saysAt "IsTruncated" result with
      | some next, true => do
          let others ← rolesFrom arn pages (some next)
          return roleNames result ++ others
      | _, _ => return roleNames result

/-- The roles that a policy is attached to. -/
def attachedRoles (arn : String) : Program σ IamError (List String) := do
  e.rolesFrom arn (e.pending (← get) + 1) none

/-- Makes a call whose result says nothing. -/
def tell (c : AwsCall) : Program σ IamError Unit := do
  let _ ← e.call c

/-- The service as a policy store. -/
def store : PolicyStore σ where
  list := e.list
  create := e.create
  createVersion := e.createVersion
  deleteVersion := fun arn versionId => e.tell (.deletePolicyVersion arn versionId)
  attachedRoles := e.attachedRoles
  attach := fun role arn => e.tell (.attachRolePolicy role arn)
  detach := fun role arn => e.tell (.detachRolePolicy role arn)
  delete := fun arn => e.tell (.deletePolicy arn)

end AwsEndpoint

end PgSteward
