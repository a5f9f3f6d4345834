import PgSteward.Text.Quoted

/-!
# Failures of a database server

A name may be refused before it gets into a statement, and a host before it is connected to.  The
server answers a statement that fails with a code of five characters.  Everything else that goes
wrong on the way is a fault of the driver.
-/

namespace PgSteward

/-- What goes wrong below the level of statements. -/
inductive DriverFault where
  /-- There is no connection to be had. -/
  | poolClosed
  /-- A query that should have a row has none. -/
  | rowNotFound
  /-- The parameter `sslmode` has an unknown value. -/
  | unknownSslMode (value : String)
  /-- The server answered with an error without a code. -/
  | uncoded (message : String)
deriving DecidableEq, Repr

/-- The text of a fault. -/
def DriverFault.message : DriverFault → String
  | .poolClosed => "attempted to acquire a connection on a closed pool"
  | .rowNotFound => "no rows returned by a query that expected to return at least one row"
  | .unknownSslMode value =>
      s!"error with configuration: unknown value {Text.quoted value} for " ++ "`ssl_mode`"
  | .uncoded message => "error returned from database: " ++ message

/-- Why work on a server failed. -/
inductive SqlError where
  /-- The name may not stand in a statement. -/
  | unsafeName (name : String)
  /-- The host is not a host name with a port. -/
  | invalidHost (host : String)
  /-- The server refused a statement. -/
  | database (code message : String)
  /-- The driver failed. -/
  | driver (fault : DriverFault)
deriving DecidableEq, Repr

namespace SqlError

/-- The text of an error. -/
def message : SqlError → String
  | .unsafeName name => "invalid identifier " ++ Text.quoted name
  | .invalidHost host => s!"invalid host {Text.quoted host}, expected hostname:port"
  | .database code message => s!"{message} (SQLSTATE {code})"
  | .driver fault => fault.message

/-- The code of the server. -/
def code? : SqlError → Option String
  | .database code _ => some code
  | _ => none

/-- The error that a server reports, with its code if it has one. -/
def reported (code : Option String) (message : String) : SqlError :=
  match code with
  | some code => .database code message
  | none => .driver (.uncoded message)

end SqlError

end PgSteward
