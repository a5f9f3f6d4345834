import PgSteward.Policy.Memory
import PgSteward.Postgres.Cluster
import PgSteward.Reference.Memory
import PgSteward.Rehearsal.Event
import PgSteward.Rehearsal.Fault
import PgSteward.Settings

/-!
# Rehearsals

A rehearsal runs the operator against a world in memory: a cluster for every host, a policy store
and a scripted policy service, the objects of a Kubernetes API, and fixed texts, host credentials
and databases.  Every call is recorded, and faults may keep it from its service.
-/

namespace PgSteward

/-- The surroundings of a rehearsal. -/
structure World where
  /-- The clusters by their hosts. -/
  clusters : NameMap Cluster := ∅
  /-- The policy store. -/
  policies : PolicyMemory := {}
  /-- The answers that the policy service has still to give. -/
  script : List AwsAnswer := []
  /-- The objects of the Kubernetes API. -/
  kube : KubeStore := {}
  /-- The texts of secrets and config maps. -/
  texts : HeldTexts := {}
  /-- The host credentials by namespace and name. -/
  hostCredentials : NameMap (NameMap HostCredentialsSpec) := ∅
  /-- The databases with their namespaces. -/
  inventory : List (String × DatabaseSpec) := []
  /-- The faults that are not used up. -/
  faults : List Fault := []
  /-- The calls so far, in order. -/
  events : List Event := []

namespace World

variable {ε α : Type}

/-- Records a call. -/
def record (e : Event) : Program World ε Unit :=
  modify fun w => { w with events := w.events ++ [e] }

/-- The fault that hits a call. -/
def strike (point : FaultPoint) (detail : String) : Program World ε (Option Fault) := fun w =>
  match Fault.strike point detail w.faults with
  | some (f, faults) => .ok (some f) { w with faults }
  | none => .ok none w

/-- Makes a call unless a fault hits it. -/
def guarded (point : FaultPoint) (detail : String) (failure : Fault → ε)
    (call : Program World ε α) : Program World ε α := do
  match ← strike point detail with
  | some f => throw (failure f)
  | none => call

/-! ## Database servers -/

/-- Runs a program on the cluster of a host, which comes into being with it. -/
def onCluster (host : String) (p : Program Cluster ε α) : Program World ε α :=
  Program.onPart (fun w => w.clusters.getD host {})
    (fun c w => { w with clusters := w.clusters.insert host c }) p

/-- Makes a call to a server and records it with its outcome. -/
def recorded (event : Option String → Event) (call : Program World SqlError α) :
    Program World SqlError α := do
  match ← Program.attempt call with
  | .ok a => do
      record (event none)
      return a
  | .error e => do
      record (event (some e.word))
      throw e

/-- The clusters as one server. -/
def server : Server World where
  connect := fun target =>
    recorded (Event.connect target) <|
      guarded .connect target.render Fault.sqlError <|
        onCluster target.host (Cluster.server.connect target)
  execute := fun session statement =>
    recorded (Event.statement statement) <|
      guarded .statement statement Fault.sqlError <|
        onCluster session.host (Cluster.server.execute session statement)
  ask := fun session query =>
    recorded (Event.query query) <|
      guarded .query query.text Fault.sqlError <|
        onCluster session.host (Cluster.server.ask session query)
  close := fun session =>
    recorded (Event.close session) <|
      guarded .close session.render Fault.sqlError <|
        onCluster session.host (Cluster.server.close session)

/-! ## Policies -/

/-- Makes a call to a policy store and records it. -/
def policyCall (call : PolicyCall) (p : Program World IamError α) : Program World IamError α := do
  match ← strike (.policy call.word) call.detail with
  | some f => do
      record (.policy call true)
      throw f.iamError
  | none => do
      record (.policy call false)
      p

/-- A policy store whose calls are recorded. -/
def observed (store : PolicyStore World) : PolicyStore World where
  list := fun path => policyCall (.list path) (store.list path)
  create := fun name path document =>
    policyCall (.create name path document) (store.create name path document)
  createVersion := fun arn document =>
    policyCall (.createVersion arn document) (store.createVersion arn document)
  deleteVersion := fun arn versionId =>
    policyCall (.deleteVersion arn versionId) (store.deleteVersion arn versionId)
  attachedRoles := fun arn => policyCall (.attachedRoles arn) (store.attachedRoles arn)
  attach := fun role arn => policyCall (.attach role arn) (store.attach role arn)
  detach := fun role arn => policyCall (.detach role arn) (store.detach role arn)
  delete := fun arn => policyCall (.delete arn) (store.delete arn)

/-- Runs a program on the policy store. -/
def onPolicies (p : Program PolicyMemory ε α) : Program World ε α :=
  Program.onPart (fun w => w.policies) (fun m w => { w with policies := m }) p

/-- The policy store in memory. -/
def memoryPolicies : PolicyStore World where
  list := fun path => onPolicies (PolicyMemory.store.list path)
  create := fun name path document => onPolicies (PolicyMemory.store.create name path document)
  createVersion := fun arn document => onPolicies (PolicyMemory.store.createVersion arn document)
  deleteVersion := fun arn version => onPolicies (PolicyMemory.store.deleteVersion arn version)
  attachedRoles := fun arn => onPolicies (PolicyMemory.store.attachedRoles arn)
  attach := fun role arn => onPolicies (PolicyMemory.store.attach role arn)
  detach := fun role arn => onPolicies (PolicyMemory.store.detach role arn)
  delete := fun arn => onPolicies (PolicyMemory.store.delete arn)

/-- The next answer of the script.  A script that has run out answers with an error. -/
def nextAnswer : Program World IamError AwsAnswer := fun w =>
  match w.script with
  | [] => .ok (.error (some "ScriptExhausted") none) w
  | a :: rest => .ok a { w with script := rest }

/-- The scripted policy service. -/
def awsPolicies : AwsEndpoint World where
  send := fun call => do
    record (.aws call)
    nextAnswer
  pending := fun w => w.script.length

/-! ## Kubernetes -/

/-- The response of the store to a request. -/
def answer (request : KubeRequest) : Program World ε KubeResponse := fun w =>
  let (response, kube) := w.kube.answer request
  .ok response { w with kube }

/-- The response to a request. -/
def respond (request : KubeRequest) : Program World ε KubeResponse := do
  match ← strike .kube request.render with
  | some f => return f.response
  | none => answer request

/-- The Kubernetes API. -/
def kubeClient : KubeClient World where
  send := fun request => do
    let response ← respond request
    record (.kube request response.status)
    return response

/-! ## Fixed surroundings -/

/-- Finds texts among those that the world holds. -/
def resolver : Resolver World where
  read := fun kind space k => do Program.ofExcept ((← get).texts.read kind space k)

/-- The host credentials that the world holds. -/
def heldCredentials (space name : String) : Program World Error (Option HostCredentialsSpec) :=
  guarded .hostCredentials s!"{space}/{name}" (fun f => .invalid f.message) do
    return (← get).hostCredentials[space]?.bind fun specs => specs[name]?

/-- The databases that the world holds. -/
def heldDatabases (space : String) : Program World Error (List DatabaseSpec) := do
  record (.inventory space)
  guarded .inventory space (fun f => .invalid f.message) do
    return ((← get).inventory.filter fun d => d.1 = space).map (·.2)

/-! ## Surroundings -/

/-- Where references, host credentials and databases come from. -/
inductive Backend where
  /-- From what the world holds. -/
  | memory
  /-- From the Kubernetes API. -/
  | kube
deriving DecidableEq, Repr

/-- Where policies are kept. -/
inductive PolicyBackend where
  /-- In the policy store in memory. -/
  | memory
  /-- In the scripted policy service. -/
  | aws
deriving DecidableEq, Repr

/-- The policies of a rehearsal. -/
def policyStore : PolicyBackend → PolicyStore World
  | .memory => observed memoryPolicies
  | .aws => observed awsPolicies.store

/-- The surroundings of a rehearsal. -/
def surroundings (backend : Backend) (policies : PolicyBackend) : Surroundings World where
  server := server
  resolver := match backend with
    | .memory => resolver
    | .kube => kubeClient.resolver
  hostCredentials := match backend with
    | .memory => heldCredentials
    | .kube => kubeClient.hostCredentials
  inventory := match backend with
    | .memory => heldDatabases
    | .kube => kubeClient.databases
  policies := policyStore policies
  kube := kubeClient

end World

end PgSteward
