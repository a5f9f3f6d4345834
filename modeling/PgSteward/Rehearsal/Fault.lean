import PgSteward.Kube.Store
import PgSteward.Policy.Error
import PgSteward.Postgres.Error

/-!
# Faults

A fault makes a call fail before it reaches the service.  It hits the calls of one kind whose detail
starts with a given text, and is used up after a number of hits.  Of several faults that would hit a
call the first does.
-/

namespace PgSteward

/-- The calls that a fault may hit. -/
inductive FaultPoint where
  /-- Connections. -/
  | connect
  /-- Ends of sessions. -/
  | close
  | statement
  | query
  /-- Look-ups of host credentials. -/
  | hostCredentials
  /-- Listings of databases. -/
  | inventory
  /-- Calls of a name to the policy store. -/
  | policy (word : String)
  /-- Requests to the Kubernetes API. -/
  | kube
deriving DecidableEq, Repr

/-- A fault. -/
structure Fault where
  /-- The calls that it hits. -/
  point : FaultPoint
  /-- The start of their details. -/
  start : String
  /-- The code of the failure. -/
  code : Option String
  /-- The text of the failure. -/
  message : String
  /-- The response to a request that it hits. -/
  response : KubeResponse
  /-- The number of hits left. -/
  times : Nat

namespace Fault

/-- Whether a fault hits a call. -/
def hits (f : Fault) (point : FaultPoint) (detail : String) : Bool :=
  0 < f.times && f.point = point && f.start.toList.isPrefixOf detail.toList

/-- The failure of work on a server. -/
def sqlError (f : Fault) : SqlError :=
  match f.code with
  | some code => .database code f.message
  | none => .driver .poolClosed

/-- The failure of a call to the policy store. -/
def iamError (f : Fault) : IamError :=
  if f.code = some "NoSuchEntity" then .noSuchEntity f.message
  else .service (.exception "ServiceFailureException" (some f.message))

/-- The first fault that hits a call, and the faults after the hit. -/
def strike (point : FaultPoint) (detail : String) : List Fault → Option (Fault × List Fault)
  | [] => none
  | f :: rest =>
      if f.hits point detail then some (f, { f with times := f.times - 1 } :: rest)
      else (strike point detail rest).map fun found => (found.1, f :: found.2)

end Fault

end PgSteward
