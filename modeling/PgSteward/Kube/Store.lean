import PgSteward.Json.Merge
import PgSteward.Kube.Client

/-!
# A Kubernetes API in memory

The objects are kept by their paths.  A merge patch changes an object by the rule of merge patches,
and a list of steps as a whole or not at all.
-/

namespace PgSteward

/-- The objects of a cluster by their paths. -/
structure KubeStore where
  objects : NameMap Json := ∅

namespace KubeStore

/-- A status object. -/
def statusObject (status : Nat) (reason message : String) : Json :=
  .object [("kind", .text "Status"), ("apiVersion", .text "v1"), ("metadata", .object []),
    ("status", .text "Failure"), ("message", .text message), ("reason", .text reason),
    ("code", .ofNat status)]

/-- A response with a status object. -/
def failed (status : Nat) (reason message : String) : KubeResponse :=
  ⟨status, .value (statusObject status reason message)⟩

/-- The response to a request for an object that does not exist. -/
def notFound (kind : KubeKind) (name : String) : KubeResponse :=
  failed 404 "NotFound" s!"{kind.plural} \"{name}\" not found"

/-- The response to a request that succeeded. -/
def ok (j : Json) : KubeResponse := ⟨200, .value j⟩

/-- The objects of a kind in a namespace, in the order of their paths. -/
def below (s : KubeStore) (kind : KubeKind) (space : String) : List Json :=
  let start := (kind.listPath space ++ "/").toList
  (s.objects.toList.filter fun o => start.isPrefixOf o.1.toList).map (·.2)

/-- A list of objects as one object. -/
def listObject (items : List Json) : Json :=
  .object [("kind", .text "List"), ("apiVersion", .text "v1"), ("metadata", .object []),
    ("items", .list items)]

/-- The response to steps that are not applied. -/
def refused : Json.PatchFault → KubeResponse
  | .testFailed place => failed 422 "Invalid" s!"test failed at {place}"
  | .noPlace place => failed 422 "Invalid" s!"no such path: {place}"

/-- Changes an object that exists, if the change succeeds. -/
def update (s : KubeStore) (kind : KubeKind) (space name : String)
    (change : Json → Except KubeResponse Json) : KubeResponse × KubeStore :=
  match s.objects[kind.path space name]? with
  | none => (notFound kind name, s)
  | some j =>
      match change j with
      | .error response => (response, s)
      | .ok j => (ok j, { s with objects := s.objects.insert (kind.path space name) j })

/-- The response to a request, and the objects after it. -/
def answer (s : KubeStore) : KubeRequest → KubeResponse × KubeStore
  | .get kind space name =>
      match s.objects[kind.path space name]? with
      | some j => (ok j, s)
      | none => (notFound kind name, s)
  | .list kind space => (ok (listObject (s.below kind space)), s)
  | .mergeStatus kind space name patch =>
      s.update kind space name fun j => .ok (j.merge patch)
  | .change kind space name steps =>
      s.update kind space name fun j => (Json.applyPatch steps j).mapError refused

/-- The store as a client of programs. -/
def client : KubeClient KubeStore where
  send := fun request s =>
    let (response, s) := s.answer request
    .ok response s

end KubeStore

end PgSteward
