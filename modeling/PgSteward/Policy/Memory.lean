import PgSteward.Policy.Store
import PgSteward.Text.Numeral

/-!
# A policy store in memory

The store numbers the versions of a policy and keeps at most five of them.  It can be told to fail
the next attachment or detachment, and to let a detachment find the role detached by someone else.
It counts the calls that change something.

`PolicyMemory.store` offers it to programs.
-/

namespace PgSteward

/-- A policy of the store. -/
structure StoredPolicy where
  name : String
  /-- The versions with their documents, the oldest first. -/
  versions : List (String × PolicyDocument)
  defaultVersion : String
  /-- The number of the next version. -/
  nextVersion : Nat
  /-- The roles that the policy is attached to. -/
  attached : NameSet := ∅
deriving DecidableEq

/-- The operations that can be told to fail. -/
inductive FailingCall where
  /-- To attach a policy to a role. -/
  | attach
  /-- To detach a policy from a role. -/
  | detach
deriving DecidableEq, Repr

/-- The name of an operation. -/
def FailingCall.word : FailingCall → String
  | .attach => "attach_role_policy"
  | .detach => "detach_role_policy"

/-- A policy store. -/
structure PolicyMemory where
  /-- The policies by their resource names. -/
  policies : NameMap StoredPolicy := ∅
  /-- The number of calls that have changed something. -/
  mutations : Nat := 0
  /-- The operations that fail when they are next called. -/
  failures : List FailingCall := []
  /-- The number of detachments that find the role detached. -/
  racedDetaches : Nat := 0
deriving DecidableEq

/-- The name of a version. -/
def versionName (n : Nat) : String := String.ofList ('v' :: Text.decimal n)

/-- The number of versions that a policy may have. -/
def versionLimit : Nat := 5

namespace StoredPolicy

/-- The document of the default version. -/
def document (p : StoredPolicy) : PolicyDocument :=
  match p.versions.find? fun v => v.1 = p.defaultVersion with
  | some v => v.2
  | none => {}

/-- A policy with its first version. -/
def fresh (name : String) (document : PolicyDocument) : StoredPolicy where
  name := name
  versions := [(versionName 1, document)]
  defaultVersion := versionName 1
  nextVersion := 2

/-- A policy as the store shows it. -/
def managed (arn : String) (p : StoredPolicy) : ManagedPolicy :=
  { name := p.name, arn, versionId := p.defaultVersion, document := p.document }

/-- A policy with a version more, which is the default. -/
def addVersion (p : StoredPolicy) (document : PolicyDocument) : StoredPolicy :=
  { p with
    versions := p.versions ++ [(versionName p.nextVersion, document)]
    defaultVersion := versionName p.nextVersion
    nextVersion := p.nextVersion + 1 }

/-- A policy without a version. -/
def dropVersion (p : StoredPolicy) (versionId : String) : StoredPolicy :=
  { p with versions := p.versions.filter fun v => v.1 ≠ versionId }

/-- The versions with a statement more in the document of one of them. -/
def pushInto (versionId : String) (s : PolicyStatement) :
    List (String × PolicyDocument) → List (String × PolicyDocument)
  | [] => []
  | v :: rest =>
      if v.1 = versionId then (v.1, { v.2 with statements := v.2.statements ++ [s] }) :: rest
      else v :: pushInto versionId s rest

end StoredPolicy

namespace PolicyMemory

/-- The resource name of the policy of a name. -/
def arnOf (name : String) : String := s!"arn:aws:iam::123456789012:policy/{name}"

/-- Counts a call that changes something. -/
def count : Program PolicyMemory IamError Unit :=
  modify fun m => { m with mutations := m.mutations + 1 }

/-- The policy of a resource name. -/
def find (arn : String) : Program PolicyMemory IamError StoredPolicy := do
  match (← get).policies[arn]? with
  | some p => return p
  | none => throw (.misuse .noPolicy)

/-- Keeps a policy under a resource name. -/
def keep (arn : String) (p : StoredPolicy) : Program PolicyMemory IamError Unit :=
  modify fun m => { m with policies := m.policies.insert arn p }

/-- Fails if the operation has been told to. -/
def failNext (call : FailingCall) : Program PolicyMemory IamError Unit := do
  let m ← get
  if m.failures.contains call then
    set { m with failures := m.failures.erase call }
    throw (.service (.exception "ServiceFailureException" (some s!"{call.word} failed")))

/-- The policies, in the order of their resource names. -/
def list : Program PolicyMemory IamError (List ManagedPolicy) := do
  return (← get).policies.toList.map fun p => p.2.managed p.1

/-- Creates a policy. -/
def create (name : String) (document : PolicyDocument) :
    Program PolicyMemory IamError ManagedPolicy := do
  count
  let arn := arnOf name
  if (← get).policies.contains arn then throw (.misuse .policyExists)
  let policy := StoredPolicy.fresh name document
  keep arn policy
  return policy.managed arn

/-- Creates a version. -/
def createVersion (arn : String) (document : PolicyDocument) :
    Program PolicyMemory IamError String := do
  count
  let policy ← find arn
  if policy.versions.length ≥ versionLimit then throw (.misuse .tooManyVersions)
  let policy := policy.addVersion document
  keep arn policy
  return policy.defaultVersion

/-- Deletes a version. -/
def deleteVersion (arn versionId : String) : Program PolicyMemory IamError Unit := do
  count
  let policy ← find arn
  if policy.defaultVersion = versionId then throw (.misuse .defaultVersion)
  keep arn (policy.dropVersion versionId)

/-- The roles that a policy is attached to; none for a policy that does not exist. -/
def attachedRoles (arn : String) : Program PolicyMemory IamError (List String) := do
  match (← get).policies[arn]? with
  | some p => return p.attached.toList
  | none => return []

/-- Attaches a policy. -/
def attach (role arn : String) : Program PolicyMemory IamError Unit := do
  failNext .attach
  count
  let policy ← find arn
  keep arn { policy with attached := policy.attached.insert role }

/-- The error of a detachment from a role that a policy is not attached to. -/
def notAttached (role : String) : IamError := .noSuchEntity s!"role {role} is not attached"

/-- Detaches a policy. -/
def detach (role arn : String) : Program PolicyMemory IamError Unit := do
  failNext .detach
  let policy ← find arn
  keep arn { policy with attached := policy.attached.erase role }
  let m ← get
  if 0 < m.racedDetaches then
    set { m with racedDetaches := m.racedDetaches - 1 }
    throw (notAttached role)
  count
  if !policy.attached.contains role then throw (notAttached role)

/-- Deletes a policy. -/
def delete (arn : String) : Program PolicyMemory IamError Unit := do
  count
  let policy ← find arn
  modify fun m => { m with policies := m.policies.erase arn }
  if !policy.attached.isEmpty then throw (.misuse .stillAttached)

/-- Adds a statement to the default version of a policy, without a version of its own. -/
def pushStatement (name : String) (s : PolicyStatement) : Program PolicyMemory IamError Unit := do
  let policy ← find (arnOf name)
  keep (arnOf name)
    { policy with versions := StoredPolicy.pushInto policy.defaultVersion s policy.versions }

/-- The documents of the policies by their names. -/
def documents (m : PolicyMemory) : NameMap PolicyDocument :=
  NameMap.ofPairs (m.policies.toList.map fun p => (p.2.name, p.2.document))

/-- The store as programs see it.  It does not tell paths apart. -/
def store : PolicyStore PolicyMemory where
  list := fun _ => list
  create := fun name _ document => create name document
  createVersion := createVersion
  deleteVersion := deleteVersion
  attachedRoles := attachedRoles
  attach := attach
  detach := detach
  delete := delete

end PolicyMemory

end PgSteward
