import PgSteward.Kube.Error
import PgSteward.Policy.Error
import PgSteward.Postgres.Error
import PgSteward.Reference.Basic

/-!
# Errors

An error says why a resource is not as it should be.  Its kind decides what happens next: a resource
that is invalid waits for a change, any other is tried again after a short delay.

Errors of several steps are combined into one, whose kind is the most retryable one.  So one bad
field never stops the retries for the rest.
-/

namespace PgSteward

/-- How a failure is treated, the least retryable first. -/
inductive ErrorKind where
  /-- The resource must change before another attempt can succeed. -/
  | invalid
  /-- Something that the resource depends on may show up. -/
  | transient
  /-- A server failed. -/
  | operational
deriving DecidableEq, Repr

namespace ErrorKind

/-- The place of a kind in the order. -/
def rank : ErrorKind → Nat
  | .invalid => 0
  | .transient => 1
  | .operational => 2

/-- The more retryable of two kinds. -/
def max (a b : ErrorKind) : ErrorKind := if a.rank ≤ b.rank then b else a

end ErrorKind

/-- Why a resource is not as it should be. -/
inductive Error where
  /-- The resource asks for something that cannot be. -/
  | invalid (message : String)
  /-- A reference has no text. -/
  | reference (field : String) (error : LookupError)
  /-- A database server failed. -/
  | sql (error : SqlError)
  /-- The policy service failed. -/
  | iam (error : IamError)
  /-- The Kubernetes API failed. -/
  | kube (error : KubeError)
  /-- Several things went wrong. -/
  | multiple (errors : List Error)

namespace Error

mutual

/-- The text of an error. -/
def message : Error → String
  | .invalid message => message
  | .reference field error => s!"resolve {field} reference: {error.message}"
  | .sql error => error.message
  | .iam error => error.message
  | .kube error => "kube api: " ++ error.message
  | .multiple errors => "; ".intercalate (messages errors)

/-- The texts of errors. -/
def messages : List Error → List String
  | [] => []
  | e :: rest => message e :: messages rest

end

/-- The kind of a reference without a text. -/
def lookupKind : LookupError → ErrorKind
  | .noValue => .invalid
  | _ => .transient

/-- The kind of a failure on a database server. -/
def sqlKind : SqlError → ErrorKind
  | .unsafeName _ | .invalidHost _ => .invalid
  | _ => .operational

mutual

/-- The kind of an error. -/
def kind : Error → ErrorKind
  | .invalid _ => .invalid
  | .reference _ error => lookupKind error
  | .sql error => sqlKind error
  | .iam _ | .kube _ => .operational
  | .multiple errors => greatestKind errors

/-- The most retryable kind of some errors. -/
def greatestKind : List Error → ErrorKind
  | [] => .invalid
  | e :: rest => (kind e).max (greatestKind rest)

end

/-- The errors that an error combines. -/
def parts : Error → List Error
  | .multiple errors => errors
  | e => [e]

/-- One error for several. -/
def combine : List Error → Option Error
  | [] => none
  | [e] => some e
  | errors => some (.multiple (errors.flatMap parts))

end Error

/-- What to do about a resource next. -/
inductive Action where
  /-- Nothing until it changes. -/
  | awaitChange
  /-- Look at it again after some seconds. -/
  | requeue (seconds : Nat)
deriving DecidableEq, Repr

/-- The seconds before a resource is tried again that failed for a reason outside it. -/
def retryDelay : Nat := 10

/-- What to do after an error. -/
def Error.action (e : Error) : Action :=
  match e.kind with
  | .invalid => .awaitChange
  | .transient | .operational => .requeue retryDelay

end PgSteward
