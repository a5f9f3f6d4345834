import PgSteward.Policy.Store
import PgSteward.Text.Cut
import PgSteward.Text.Numeral

/-!
# The shard of policies

Each user has one statement, which lets it connect as its role.  The statements are spread over a
shard of policies with numbered names, since a policy holds only so many.

`Sharder.ensure` makes sure that the statement of a user is there: it mends the first one it finds
and drops the others, or it adds one to the first policy with room, or to a new policy under the
least free number.  `Sharder.remove` drops all statements of a user, and deletes a policy that is
left with none.
-/

namespace PgSteward

/-- What the shard depends on. -/
structure ShardSettings where
  /-- The start of the names of the policies. -/
  baseName : String := "postgres_access"
  /-- The path of the policies. -/
  path : String := "postgresql-operator"
  /-- The region of the databases. -/
  region : String := "eu-west-1"
  /-- The account of the databases. -/
  account : String := ""
  /-- The start of the names of login roles. -/
  rolePrefix : String := ""
  /-- The number of statements at which a policy is full. -/
  limit : Nat := 30
  /-- The roles that every policy is attached to. -/
  loginRoles : List String := []
deriving DecidableEq, Repr

/-- A path with one slash at its start and one at its end. -/
def policyPath (path : String) : String :=
  let inner := ((path.toList.dropWhile (· = '/')).reverse.dropWhile (· = '/')).reverse
  if inner.isEmpty then "/" else String.ofList ('/' :: inner ++ ['/'])

/-- The pattern for the identity of a user. -/
def userIdOf (user : String) : String := s!"*:{user}@lunar.app"

namespace ShardSettings

/-- The resource that stands for a role on all databases. -/
def resource (s : ShardSettings) (role : String) : String :=
  s!"arn:aws:rds-db:{s.region}:{s.account}:dbuser:*/{s.rolePrefix}{role}"

/-- The statement that lets a user connect as a role. -/
def statement (s : ShardSettings) (user role : String) : PolicyStatement where
  effect := "Allow"
  action := ["rds-db:connect"]
  resource := [s.resource role]
  patterns := (∅ : NameMap String).insert PolicyStatement.userKey (userIdOf user)

/-- The number in the name of a policy of the shard. -/
def index? (s : ShardSettings) (name : String) : Option Nat := do
  let rest ← Text.dropStart? s.baseName.toList name.toList
  let digits ← Text.dropStart? ['_'] rest
  Text.naturalBelow? Text.wordLimit digits

/-- The name of the policy of a number. -/
def policyName (s : ShardSettings) (n : Nat) : String :=
  s!"{s.baseName}_" ++ String.ofList (Text.decimal n)

/-- The number by which a policy is ordered.  One that is not of the shard comes last. -/
def orderNumber (s : ShardSettings) (name : String) : Nat :=
  (s.index? name).getD (Text.wordLimit - 1)

/-- Whether a policy may come before another. -/
def inOrder (s : ShardSettings) (a b : ManagedPolicy) : Bool :=
  let m := s.orderNumber a.name
  let n := s.orderNumber b.name
  m < n || (m = n && decide (a.name ≤ b.name))

/-- The least number that none of some policies has. -/
def freeNumber (s : ShardSettings) (policies : List ManagedPolicy) : Nat :=
  let taken := policies.filterMap fun p => s.index? p.name
  ((List.range (taken.length + 1)).find? fun n => !taken.contains n).getD taken.length

end ShardSettings

/-- Whether a statement is for a user. -/
def PolicyStatement.isFor (s : PolicyStatement) (userId : String) : Bool :=
  s.userId? = some userId

/-- What is left of a list of statements. -/
structure Sifted where
  /-- The statements left. -/
  statements : List PolicyStatement
  /-- Whether one of them is for the user, here or earlier. -/
  found : Bool
  /-- Whether something has changed. -/
  changed : Bool
deriving DecidableEq

/-- Keeps one statement of a user, with the resource that is wanted, and drops its others.  `found`
says that one has been kept earlier. -/
def sift (userId : String) (resource : List String) (found : Bool) :
    List PolicyStatement → Sifted
  | [] => ⟨[], found, false⟩
  | s :: rest =>
      if s.isFor userId then
        let others := sift userId resource true rest
        if found then { others with changed := true }
        else
          { statements := { s with resource } :: others.statements
            found := true
            changed := others.changed || s.resource ≠ resource }
      else
        let others := sift userId resource found rest
        { others with statements := s :: others.statements }

/-- Works on the shard over surroundings `σ`. -/
structure Sharder (σ : Type) where
  store : PolicyStore σ
  /-- What the shard depends on. -/
  settings : ShardSettings

namespace Sharder

variable {σ : Type} (sh : Sharder σ)

/-- The policies under the path of the shard, in order. -/
def policies : Program σ IamError (List ManagedPolicy) := do
  let found ← sh.store.list (policyPath sh.settings.path)
  return found.mergeSort sh.settings.inOrder

/-- Gives a policy other statements.  The version that was the default goes away. -/
def replaceStatements (policy : ManagedPolicy) (statements : List PolicyStatement) :
    Program σ IamError Unit := do
  let _ ← sh.store.createVersion policy.arn { policy.document with statements }
  sh.store.deleteVersion policy.arn policy.versionId

/-- Attaches a policy to the login roles that it is not attached to. -/
def attachMissing (arn : String) : Program σ IamError Unit := do
  let attached ← sh.store.attachedRoles arn
  Program.sequence ((sh.settings.loginRoles.filter fun role => !attached.contains role).map
    fun role => sh.store.attach role arn)

/-- Keeps one statement of a user in the whole shard, and answers with the policy that has it.
`holder` is the policy that has been found to have it so far. -/
def settle (userId : String) (resource : List String) (holder : Option ManagedPolicy) :
    List ManagedPolicy → Program σ IamError (Option ManagedPolicy)
  | [] => pure holder
  | policy :: rest => do
      let sifted := sift userId resource holder.isSome policy.document.statements
      if sifted.changed then sh.replaceStatements policy sifted.statements
      settle userId resource (holder.or (if sifted.found then some policy else none)) rest

/-- Adds a statement to the first policy with room, or to a new one, and answers with the resource
name of the policy. -/
def place (statement : PolicyStatement) (policies : List ManagedPolicy) :
    Program σ IamError String := do
  match policies.find? fun p => p.document.statements.length < sh.settings.limit with
  | some policy => do
      sh.replaceStatements policy (policy.document.statements ++ [statement])
      return policy.arn
  | none => do
      let name := sh.settings.policyName (sh.settings.freeNumber policies)
      let policy ← sh.store.create name (policyPath sh.settings.path) { statements := [statement] }
      return policy.arn

/-- Makes sure that one statement lets a user connect as a role, and that its policy is attached to
the login roles. -/
def ensure (user role : String) : Program σ IamError Unit := do
  let wanted := sh.settings.statement user role
  let policies ← sh.policies
  match ← sh.settle (userIdOf user) wanted.resource none policies with
  | some policy => sh.attachMissing policy.arn
  | none => do
      let arn ← sh.place wanted policies
      sh.attachMissing arn

/-- Detaches a policy from a role.  A role that it is not attached to any more is no failure. -/
def release (arn role : String) : Program σ IamError Unit := do
  match ← Program.attempt (sh.store.detach role arn) with
  | .ok () => pure ()
  | .error (.noSuchEntity _) => pure ()
  | .error e => throw e

/-- Detaches a policy from all its roles and deletes it. -/
def discard (arn : String) : Program σ IamError Unit := do
  let roles ← sh.store.attachedRoles arn
  Program.sequence (roles.map (sh.release arn))
  sh.store.delete arn

/-- Drops the statements of a user from a policy. -/
def removeFrom (userId : String) (policy : ManagedPolicy) : Program σ IamError Unit := do
  let kept := policy.document.statements.filter fun s => !s.isFor userId
  if kept.length = policy.document.statements.length then pure ()
  else if kept.isEmpty then sh.discard policy.arn
  else sh.replaceStatements policy kept

/-- Drops the statements of a user from the shard. -/
def remove (user : String) : Program σ IamError Unit := do
  let policies ← sh.policies
  Program.sequence (policies.map (sh.removeFrom (userIdOf user)))

end Sharder

end PgSteward
