import PgSteward.Policy.Document
import PgSteward.Policy.Error
import PgSteward.Program

/-!
# Policy stores

A policy store keeps policies under resource names.  Each policy has versions, one of which is the
default, and is attached to roles.
-/

namespace PgSteward

/-- A policy with the document of its default version. -/
structure ManagedPolicy where
  name : String
  /-- The resource name. -/
  arn : String
  /-- The default version. -/
  versionId : String
  /-- The document of the default version. -/
  document : PolicyDocument
deriving DecidableEq

/-- What a policy store offers to programs over surroundings `σ`. -/
structure PolicyStore (σ : Type) where
  /-- The policies under a path. -/
  list : (path : String) → Program σ IamError (List ManagedPolicy)
  /-- Creates a policy of a name under a path. -/
  create : (name path : String) → PolicyDocument → Program σ IamError ManagedPolicy
  /-- Creates a version, which becomes the default, and answers with its name. -/
  createVersion : (arn : String) → PolicyDocument → Program σ IamError String
  deleteVersion : (arn versionId : String) → Program σ IamError Unit
  /-- The roles that a policy is attached to. -/
  attachedRoles : (arn : String) → Program σ IamError (List String)
  /-- Attaches a policy to a role. -/
  attach : (role arn : String) → Program σ IamError Unit
  /-- Detaches a policy from a role. -/
  detach : (role arn : String) → Program σ IamError Unit
  /-- Deletes a policy. -/
  delete : (arn : String) → Program σ IamError Unit

end PgSteward
