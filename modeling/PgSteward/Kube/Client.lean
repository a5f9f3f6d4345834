import PgSteward.Error
import PgSteward.Kube.Object
import PgSteward.Kube.Request
import PgSteward.Reference.Resolver

/-!
# Reading and changing objects

A client sends requests and makes sense of the responses.  With it references are resolved against
the secrets and config maps of a cluster, and host credentials and databases are read from it.
-/

namespace PgSteward

/-- Sends requests over surroundings `σ`. -/
structure KubeClient (σ : Type) where
  send : KubeRequest → Program σ KubeError KubeResponse

namespace KubeClient

variable {σ : Type} (c : KubeClient σ)

/-- What the response to a request holds. -/
def ask {α : Type} (decode : Decoder α) (request : KubeRequest) : Program σ KubeError α := do
  let response ← c.send request
  Program.ofExcept (response.read decode)

/-- An object, if it exists. -/
def find? {α : Type} (kind : KubeKind) (decode : Decoder α) (space name : String) :
    Program σ KubeError (Option α) := do
  match ← Program.attempt (c.ask decode (.get kind space name)) with
  | .ok a => return some a
  | .error e => if e.isNotFound then return none else throw e

/-- The text under a key of an object. -/
def textOf (kind : HolderKind) (space : String) (k : KeyOf) : Program σ LookupError String :=
  let unreadable (e : KubeError) : LookupError := .unreadable kind space k.name e.message
  match kind with
  | .secret => do
      let secret ← Program.mapError unreadable (c.find? .secret toSecret space k.name)
      Program.ofExcept (secretText secret space k)
  | .configMap => do
      let configMap ← Program.mapError unreadable (c.find? .configMap toConfigMap space k.name)
      Program.ofExcept (configMapText configMap space k)

/-- Finds the texts of references in the secrets and config maps of a cluster. -/
def resolver : Resolver σ := ⟨c.textOf⟩

/-- The host credentials of a name in a namespace. -/
def hostCredentials (space name : String) : Program σ Error (Option HostCredentialsSpec) := do
  let found ← Program.mapError Error.kube
    (c.find? .hostCredentials toHostCredentials space name)
  return found.map (·.spec)

/-- The databases of a namespace. -/
def databases (space : String) : Program σ Error (List DatabaseSpec) := do
  let found ← Program.mapError Error.kube
    (c.ask (toObjects toDatabase) (.list .database space))
  return found.map (·.spec)

end KubeClient

end PgSteward
