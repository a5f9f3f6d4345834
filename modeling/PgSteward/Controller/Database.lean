import PgSteward.Controller.Services

/-!
# Databases

A database resource is made on its host, and its status says how that went.  The status keeps the
host and the owning role of the last success.  It is written only when something in it other than
its time changes, so a resource that stays as it is causes no writes.
-/

namespace PgSteward

/-- The host and the owning role of a database that is as its resource asks. -/
structure Provided where
  host : String
  /-- The owning role. -/
  user : String
deriving DecidableEq, Repr

namespace DatabaseStatus

/-- The status after an attempt. -/
def after (outcome : Except Error Provided) (previous : Option DatabaseStatus) : DatabaseStatus :=
  let before := previous.getD {}
  match outcome with
  | .ok p =>
      { phase := some .running, phaseUpdated := before.phaseUpdated, host := p.host, user := p.user
        error := "" }
  | .error e =>
      { phase := some (if e.kind = .invalid then .invalid else .failed)
        phaseUpdated := before.phaseUpdated, host := before.host, user := before.user
        error := e.message }

/-- Whether a status differs from the one before in more than its time. -/
def differs (next : DatabaseStatus) : Option DatabaseStatus → Bool
  | none => true
  | some previous =>
      previous.phase ≠ next.phase || previous.host ≠ next.host || previous.user ≠ next.user ||
        previous.error ≠ next.error

/-- The patch that writes a status. -/
def patch (s : DatabaseStatus) : Json := .object [("status", s.encode)]

end DatabaseStatus

namespace Services

variable {σ : Type} (s : Services σ)

/-- The name of the owning role of a database. -/
def ownerName (space : String) (spec : DatabaseSpec) : Program σ Error String :=
  match spec.user.filter fun user => !user.isEmpty with
  | some user => s.selector.resolve space "user" user
  | none => pure spec.name

/-- Makes the database of a resource. -/
def provideDatabase (space : String) (spec : DatabaseSpec) : Program σ Error Provided := do
  if spec.name.isEmpty then throw (.invalid "name is required")
  let (host, admin) ← s.selector.select space spec.host spec.hostCredentials
  let user ← s.ownerName space spec
  let password ← s.require space "password" spec.password
  let target : DatabaseTarget :=
    { name := spec.name, user, password, params := admin.params, shared := spec.isShared }
  Program.mapError Error.sql
    (s.provisioner.provide host admin target (spec.extensions.map (·.name)))
  return { host, user }

/-- What to do after an attempt to make a database. -/
def databaseAction (outcome : Except Error Provided) : Action :=
  match outcome with
  | .ok _ => .requeue s.resyncPeriod
  | .error e => e.action

/-- Writes the status of a database, if it differs from the one before. -/
def writeStatus (space name : String) (previous : Option DatabaseStatus) (next : DatabaseStatus) :
    Program σ Error Unit := do
  if next.differs previous then
    let status := { next with phaseUpdated := some s.now }
    let _ ← Program.mapError Error.kube
      (s.kube.ask toDatabase (.mergeStatus .database space name status.patch))

/-- Looks at a database resource. -/
def reconcileDatabase (r : DatabaseResource) : Program σ Error Action := do
  let (space, name) ← Program.ofExcept r.metadata.key
  let outcome ← Program.attempt (s.provideDatabase space r.spec)
  s.writeStatus space name r.status (DatabaseStatus.after outcome r.status)
  return s.databaseAction outcome

end Services

end PgSteward
