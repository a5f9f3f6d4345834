import PgSteward.Text.Quoted

/-!
# Failures of the Kubernetes API

A request is answered with a status object that says what is wrong, or with a body that is not what
was asked for.
-/

namespace PgSteward

/-- What a status object says. -/
structure ApiFailure where
  /-- The status, a word. -/
  status : String
  /-- What is wrong. -/
  message : String
  /-- The kind of failure, a word. -/
  reason : String
  /-- The code of the response. -/
  code : Nat
deriving DecidableEq, Repr

/-- Why a request to the Kubernetes API failed. -/
inductive KubeError where
  /-- The server says so. -/
  | api (failure : ApiFailure)
  /-- The body of the response is not of the type asked for. -/
  | undecodable
deriving DecidableEq, Repr

/-- The text of a status object. -/
def ApiFailure.render (f : ApiFailure) : String :=
  "ErrorResponse \x7b status: " ++ Text.quoted f.status ++ ", message: " ++ Text.quoted f.message ++
    ", reason: " ++ Text.quoted f.reason ++ ", code: " ++ toString f.code ++ " \x7d"

/-- The text of an error. -/
def KubeError.message : KubeError → String
  | .api f => s!"ApiError: {f.message}: {f.reason} ({f.render})"
  | .undecodable => "Error deserializing response"

/-- Whether the server says that the object does not exist. -/
def KubeError.isNotFound : KubeError → Bool
  | .api f => f.reason = "NotFound"
  | .undecodable => false

end PgSteward
