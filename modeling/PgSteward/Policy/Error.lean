import PgSteward.Json.Scan

/-!
# Failures of the policy service

The service answers with an exception of its own, with an error that is not foreseen, or with a
response that lacks a part.  A document it returns may be no text or no policy document.
-/

namespace PgSteward

/-- An error response of the service. -/
inductive ServiceFault where
  /-- An exception of the service, by its name. -/
  | exception (name : String) (message : Option String)
  /-- Another error, by its code if it has one. -/
  | unhandled (code : Option String)
deriving DecidableEq, Repr

/-- The text of an error response. -/
def ServiceFault.message : ServiceFault → String
  | .exception name none => name
  | .exception name (some message) => s!"{name}: {message}"
  | .unhandled none => "unhandled error"
  | .unhandled (some code) => s!"unhandled error ({code})"

/-- A use that a policy store rules out. -/
inductive StoreMisuse where
  /-- A policy is created under a name that is taken. -/
  | policyExists
  /-- The policy does not exist. -/
  | noPolicy
  /-- The policy has as many versions as it may. -/
  | tooManyVersions
  /-- The default version is deleted. -/
  | defaultVersion
  /-- The policy is deleted while it is attached. -/
  | stillAttached
deriving DecidableEq, Repr

/-- The text of a misuse. -/
def StoreMisuse.message : StoreMisuse → String
  | .policyExists => "policy already exists"
  | .noPolicy => "policy does not exist"
  | .tooManyVersions => "version limit exceeded"
  | .defaultVersion => "default version can not be deleted"
  | .stillAttached => "policy is still attached"

/-- Why work on the policies failed. -/
inductive IamError where
  /-- The service answered with an error. -/
  | service (fault : ServiceFault)
  /-- The document of a policy is not one. -/
  | document (policy : String) (fault : Json.ReadFault)
  /-- The document of a policy is no text. -/
  | encoding (policy message : String)
  /-- A response lacks a part. -/
  | incomplete (policy part : String)
  /-- The service does not know what it is asked about. -/
  | noSuchEntity (message : String)
  /-- A policy store was used against its rules. -/
  | misuse (misuse : StoreMisuse)
deriving DecidableEq, Repr

/-- What is wrong with a document. -/
def Json.ReadFault.message : Json.ReadFault → String
  | .endsEarly => "text ends too early"
  | .malformed => "malformed text"
  | .wrongShape => "wrong shape"

/-- The text of an error. -/
def IamError.message : IamError → String
  | .service fault => "aws iam: " ++ fault.message
  | .document policy fault => s!"policy {policy} document: {fault.message}"
  | .encoding policy message => s!"policy {policy} document is not url encoded: {message}"
  | .incomplete policy part => s!"policy {policy}: response is missing {part}"
  | .noSuchEntity message => "no such entity: " ++ message
  | .misuse fault => "policy store: " ++ fault.message

end PgSteward
