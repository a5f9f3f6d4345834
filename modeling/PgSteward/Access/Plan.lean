import PgSteward.Access.Basic
import PgSteward.Host.Selection

/-!
# Plans

A plan is what the intents of a user come to.  Each intent contributes planned accesses or one
error, and the plan holds the contributions in the order of the intents, those to read before those
to write.  A plan with errors is as good as another as far as it goes.

An intent on all databases of a host is measured against the inventory of the namespace, which is
listed when the first such intent needs it.  A database of the inventory whose host cannot be found
is left out.
-/

namespace PgSteward

/-- An intent of a user, with what it asks for. -/
structure Intent where
  access : AccessIntent
  privilege : Privilege
  /-- Whether the extended privileges are asked for. -/
  extended : Bool
deriving DecidableEq

/-- The intents of a user in order. -/
def Intent.ofUser (reads : List AccessIntent) (writes : List WriteIntent) : List Intent :=
  reads.map (fun a => ⟨a, .read, false⟩) ++ writes.map fun w => ⟨w.access, .write, w.extended⟩

/-- What the intents of a user come to. -/
structure Plan where
  /-- The planned accesses. -/
  access : AccessMap := ∅
  /-- The errors of the intents that come to nothing. -/
  errors : List Error := []

namespace Plan

/-- The plan with planned accesses more. -/
def add (p : Plan) (accesses : List PlannedAccess) : Plan :=
  { p with access := accesses.foldl (fun m a => NameMap.push m a.key a) p.access }

/-- The plan with an error more. -/
def fail (p : Plan) (e : Error) : Plan := { p with errors := p.errors ++ [e] }

end Plan

/-- Plans over surroundings `σ`. -/
structure Planner (σ : Type) where
  /-- Finds hosts and texts. -/
  selector : HostSelector σ
  /-- The databases of a namespace. -/
  inventory : (space : String) → Program σ Error (List DatabaseSpec)
  /-- What is allowed. -/
  flags : AccessFlags

namespace Planner

variable {σ : Type} (p : Planner σ)

/-- Whether a database of the inventory is on a host.  One whose host cannot be found is not. -/
def isOn {ε : Type} (space host : String) (database : DatabaseSpec) : Program σ ε Bool := do
  match ← Program.attempt (p.selector.hostOf space database.host database.hostCredentials) with
  | .ok found => return found = host
  | .error _ => return false

/-- The databases of the inventory that are on a host. -/
def databasesOn {ε : Type} (space host : String) :
    List DatabaseSpec → Program σ ε (List DatabaseSpec)
  | [] => pure []
  | database :: rest => do
      let here ← p.isOn space host database
      let others ← databasesOn space host rest
      return if here then database :: others else others

/-- What an intent comes to on a database. -/
def accessOn (intent : Intent) (host database schema : String) : PlannedAccess :=
  { host, database, schema, privilege := intent.privilege
    extended := intent.extended && p.flags.extendedWrite, intent := intent.access }

/-- What an intent on all databases of a host comes to.  `listed` is the inventory if it has been
listed; it is handed on. -/
def planAll (space host : String) (listed : Option (List DatabaseSpec)) (intent : Intent) :
    Program σ Error (Option (List DatabaseSpec) × List PlannedAccess) := do
  if !p.flags.allDatabases intent.privilege then return (listed, [])
  let databases ←
    match listed with
    | some databases => pure databases
    | none => p.inventory space
  let here ← p.databasesOn space host databases
  return (some databases, here.map fun d => p.accessOn intent host d.name d.name)

/-- What an intent on one database comes to. -/
def planOne (space host : String) (intent : Intent) : Program σ Error PlannedAccess := do
  let database ← p.selector.resolve space "database" intent.access.database
  let schema ← p.selector.resolveOr database space "schema" intent.access.schema
  return p.accessOn intent host database schema

/-- What an intent comes to at an instant. -/
def planIntent (now : Instant) (space : String) (listed : Option (List DatabaseSpec))
    (intent : Intent) : Program σ Error (Option (List DatabaseSpec) × List PlannedAccess) := do
  if !intent.access.isActive now then return (listed, [])
  let host ← p.selector.resolve space "host" intent.access.host
  if intent.access.allDatabases then p.planAll space host listed intent
  else
    let access ← p.planOne space host intent
    return (listed, [access])

/-- A plan with the contributions of some intents more. -/
def planFrom {ε : Type} (now : Instant) (space : String) (plan : Plan)
    (listed : Option (List DatabaseSpec)) : List Intent → Program σ ε Plan
  | [] => pure plan
  | intent :: rest => do
      match ← Program.attempt (p.planIntent now space listed intent) with
      | .ok (listed, accesses) => planFrom now space (plan.add accesses) listed rest
      | .error e => planFrom now space (plan.fail e) listed rest

/-- What the intents of a user come to at an instant. -/
def plan {ε : Type} (now : Instant) (space : String) (reads : List AccessIntent)
    (writes : List WriteIntent) : Program σ ε Plan :=
  p.planFrom now space {} none (Intent.ofUser reads writes)

end Planner

end PgSteward
