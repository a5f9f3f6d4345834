import PgSteward.Controller.Services

/-!
# Users

A user gets the access of its intents and a statement in the shard.  Each is seen to even if the
other fails.  When the resource is deleted its statement goes, and the roles stay.

A finalizer holds a resource back from being deleted until its statement is gone.  It is added
before anything else is done, and removed after the clean-up.
-/

namespace PgSteward

/-- What holds user resources until their statements are gone. -/
def userFinalizer : String := "postgresql.lunar.tech/finalizer"

/-- What is to be done about a user resource. -/
inductive UserEvent where
  /-- It is there. -/
  | apply
  /-- It is about to go. -/
  | cleanup
deriving DecidableEq, Repr

/-- The steps that add the finalizer to a list of finalizers. -/
def addFinalizer (present : List String) : List Json.PatchStep :=
  if present.isEmpty then
    [.test "/metadata/finalizers" .null, .add "/metadata/finalizers" (.ofTexts [userFinalizer])]
  else
    [.test "/metadata/finalizers" (.ofTexts present),
      .add "/metadata/finalizers/-" (.text userFinalizer)]

/-- The steps that remove the finalizer from its place. -/
def removeFinalizer (place : Nat) : List Json.PatchStep :=
  let path := s!"/metadata/finalizers/{place}"
  [.test path (.text userFinalizer), .remove path]

namespace Services

variable {σ : Type} (s : Services σ)

/-- Gives a user its access and its statement. -/
def syncUser (space : String) (spec : UserSpec) : Program σ Error Unit := do
  if spec.name.isEmpty then throw (.invalid "name is required")
  let sanitized := sanitize spec.name
  let errors ← Program.gather
    [s.granter.sync s.now space sanitized spec.read spec.write,
      Program.mapError Error.iam (s.sharder.ensure spec.name sanitized)]
  Program.failIf (Error.combine errors)

/-- Drops the statement of a user. -/
def cleanUpUser (spec : UserSpec) : Program σ Error Unit :=
  Program.mapError Error.iam (s.sharder.remove spec.name)

/-- Does what is to be done about a user resource. -/
def handleUser (event : UserEvent) (r : UserResource) : Program σ Error Action := do
  let (space, _) ← Program.ofExcept r.metadata.key
  match event with
  | .apply => do
      s.syncUser space r.spec
      return .requeue s.resyncPeriod
  | .cleanup => do
      s.cleanUpUser r.spec
      return .requeue 0

/-- Changes a user resource step by step. -/
def changeUser (space name : String) (steps : List Json.PatchStep) : Program σ Error Unit := do
  let _ ← Program.mapError Error.kube (s.kube.ask toUser (.change .user space name steps))

/-- Looks at a user resource. -/
def reconcileUser (r : UserResource) : Program σ Error Action := do
  let (space, name) ← Program.ofExcept r.metadata.key
  match r.metadata.finalizers.idxOf? userFinalizer, r.metadata.deletion.isSome with
  | some _, false => s.handleUser .apply r
  | some place, true => do
      let action ← s.handleUser .cleanup r
      s.changeUser space name (removeFinalizer place)
      return action
  | none, false => do
      s.changeUser space name (addFinalizer r.metadata.finalizers)
      return .awaitChange
  | none, true => return .awaitChange

end Services

end PgSteward
