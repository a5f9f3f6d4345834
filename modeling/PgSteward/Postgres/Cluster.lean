import PgSteward.Postgres.Command

/-!
# A cluster in memory

A cluster is a database server that holds nothing but its catalog.  It refuses the statements that
start with one of the texts it has been told to fail on, and it keeps a record of every connection
and of every statement with its outcome.

`Cluster.server` offers it to programs.
-/

namespace PgSteward

/-- A statement that a cluster has been given. -/
structure Executed where
  /-- The session that gave it. -/
  session : Session
  /-- Its text. -/
  statement : String
  /-- The error it ended with. -/
  error : Option SqlError
deriving DecidableEq

/-- A database server in memory. -/
structure Cluster where
  /-- What it knows. -/
  catalog : Catalog := {}
  /-- The statements it refuses, by their starts, each with a code. -/
  failures : List (String × String) := []
  /-- Whether it refuses memberships that go in a circle of two. -/
  strict : Bool := false
  /-- The statements it has been given, in order. -/
  log : List Executed := []
  /-- The connections it has been asked for, in order. -/
  connections : List ConnectionTarget := []
deriving DecidableEq

namespace Cluster

/-- The code with which a cluster refuses a statement. -/
def refusal? (c : Cluster) (statement : String) : Option String :=
  (c.failures.find? fun f => f.1.toList.isPrefixOf statement.toList).map (·.2)

/-- What a statement does to the catalog. -/
def effect (c : Cluster) (session : Session) (statement : String) :
    Program Catalog SqlError Unit :=
  match c.refusal? statement with
  | some code => throw (.database code s!"{statement} failed")
  | none => Catalog.run session.user session.database c.strict (Command.read statement)

/-- Runs a statement. -/
def execute (session : Session) (statement : String) : Program Cluster SqlError Unit := fun c =>
  let entry (error : Option SqlError) : List Executed :=
    c.log ++ [{ session, statement, error }]
  match c.effect session statement c.catalog with
  | .ok () catalog => .ok () { c with catalog, log := entry none }
  | .error e catalog => .error e { c with catalog, log := entry (some e) }

/-- Opens a session. -/
def connect (target : ConnectionTarget) : Program Cluster SqlError Session := do
  modify fun c => { c with connections := c.connections ++ [target] }
  return Session.opened target

/-- A cluster as programs see it. -/
def server : Server Cluster where
  connect := connect
  execute := execute
  ask := fun _ query => do return (← get).catalog.answer query
  close := fun _ => pure ()

end Cluster

end PgSteward
