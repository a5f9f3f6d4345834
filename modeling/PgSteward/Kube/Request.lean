import PgSteward.Json.Decode
import PgSteward.Json.Patch
import PgSteward.Json.Printer
import PgSteward.Json.Reader
import PgSteward.Kube.Error

/-!
# Requests to the Kubernetes API

Objects are kept by their kind, their namespace and their name, and these make up the path of a
request.  A request reads an object or all objects of a kind in a namespace, or it changes one, by a
merge patch of its status or by a list of steps.

A response with a status from 400 to 599 holds a status object, or else the response itself says
what is wrong.  Any other holds what was asked for.
-/

namespace PgSteward

/-- The kinds of objects that the operator uses. -/
inductive KubeKind where
  | secret
  | configMap
  | database
  | user
  | serviceUser
  | hostCredentials
deriving DecidableEq, Repr

namespace KubeKind

/-- The word for the objects of a kind. -/
def plural : KubeKind → String
  | .secret => "secrets"
  | .configMap => "configmaps"
  | .database => "postgresqldatabases"
  | .user => "postgresqlusers"
  | .serviceUser => "postgresqlserviceusers"
  | .hostCredentials => "postgresqlhostcredentialses"

/-- The path of the group of a kind. -/
def group : KubeKind → String
  | .secret | .configMap => "/api/v1"
  | _ => "/apis/postgresql.lunar.tech/v1alpha1"

/-- The path of the objects of a kind in a namespace. -/
def listPath (kind : KubeKind) (space : String) : String :=
  s!"{kind.group}/namespaces/{space}/{kind.plural}"

/-- The path of an object. -/
def path (kind : KubeKind) (space name : String) : String := s!"{kind.listPath space}/{name}"

end KubeKind

/-- A request. -/
inductive KubeRequest where
  /-- Reads an object. -/
  | get (kind : KubeKind) (space name : String)
  /-- Reads all objects of a kind in a namespace. -/
  | list (kind : KubeKind) (space : String)
  /-- Merges a patch into an object, by way of its status. -/
  | mergeStatus (kind : KubeKind) (space name : String) (patch : Json)
  /-- Changes an object step by step. -/
  | change (kind : KubeKind) (space name : String) (steps : List Json.PatchStep)

namespace KubeRequest

/-- The method of a request. -/
def method : KubeRequest → String
  | .get .. | .list .. => "GET"
  | .mergeStatus .. | .change .. => "PATCH"

/-- The path of a request. -/
def path : KubeRequest → String
  | .get kind space name => kind.path space name
  | .list kind space => kind.listPath space
  | .mergeStatus kind space name _ => kind.path space name ++ "/status"
  | .change kind space name _ => kind.path space name

/-- The body of a request that changes something, with its type. -/
def body? : KubeRequest → Option (String × Json)
  | .get .. | .list .. => none
  | .mergeStatus _ _ _ patch => some ("application/merge-patch+json", patch)
  | .change _ _ _ steps =>
      some ("application/json-patch+json", .list (steps.map Json.PatchStep.toJson))

/-- The text for a request. -/
def render (r : KubeRequest) : String := s!"{r.method} {r.path}"

end KubeRequest

/-- The body of a response. -/
inductive KubeBody where
  | value (j : Json)
  | text (s : String)

namespace KubeBody

/-- The value of a body, if it is one. -/
def value? : KubeBody → Option Json
  | .value j => some j
  | .text s => (Json.parse s).toOption

/-- The text of a body. -/
def render : KubeBody → String
  | .value j => j.compact
  | .text s => s

end KubeBody

/-- A response. -/
structure KubeResponse where
  /-- The status code. -/
  status : Nat
  body : KubeBody

namespace KubeResponse

/-- The phrases of the status codes. -/
def phrases : List (Nat × String) :=
  [(100, "Continue"), (101, "Switching Protocols"), (102, "Processing"), (200, "OK"),
    (201, "Created"), (202, "Accepted"), (203, "Non Authoritative Information"),
    (204, "No Content"), (205, "Reset Content"), (206, "Partial Content"), (207, "Multi-Status"),
    (208, "Already Reported"), (226, "IM Used"), (300, "Multiple Choices"),
    (301, "Moved Permanently"), (302, "Found"), (303, "See Other"), (304, "Not Modified"),
    (305, "Use Proxy"), (307, "Temporary Redirect"), (308, "Permanent Redirect"),
    (400, "Bad Request"), (401, "Unauthorized"), (402, "Payment Required"), (403, "Forbidden"),
    (404, "Not Found"), (405, "Method Not Allowed"), (406, "Not Acceptable"),
    (407, "Proxy Authentication Required"), (408, "Request Timeout"), (409, "Conflict"),
    (410, "Gone"), (411, "Length Required"), (412, "Precondition Failed"),
    (413, "Payload Too Large"), (414, "URI Too Long"), (415, "Unsupported Media Type"),
    (416, "Range Not Satisfiable"), (417, "Expectation Failed"), (418, "I'm a teapot"),
    (421, "Misdirected Request"), (422, "Unprocessable Entity"), (423, "Locked"),
    (424, "Failed Dependency"), (425, "Too Early"), (426, "Upgrade Required"),
    (428, "Precondition Required"), (429, "Too Many Requests"),
    (431, "Request Header Fields Too Large"), (451, "Unavailable For Legal Reasons"),
    (500, "Internal Server Error"), (501, "Not Implemented"), (502, "Bad Gateway"),
    (503, "Service Unavailable"), (504, "Gateway Timeout"), (505, "HTTP Version Not Supported"),
    (506, "Variant Also Negotiates"), (507, "Insufficient Storage"), (508, "Loop Detected"),
    (510, "Not Extended"), (511, "Network Authentication Required")]

/-- The text of a status code. -/
def statusText (status : Nat) : String :=
  match phrases.find? fun p => p.1 = status with
  | some p => s!"{status} {p.2}"
  | none => s!"{status} <unknown status code>"

/-- Decodes a code of a status object. -/
def toCode : Decoder Nat
  | .number (.integer n) =>
      if 0 ≤ n ∧ n < 65536 then .ok n.toNat else .error (.rejected "code out of range")
  | j => j.notA "u16"

/-- Decodes a status object. -/
def toFailure : Decoder ApiFailure := fun j => do
  let r ← Record.of "ErrorResponse" 4 j
  let status := r.required 0 "status" Json.toText
  let message := r.optional 1 "message" Json.toText
  let reason := r.optional 2 "reason" Json.toText
  let code := r.required 3 "code" toCode
  r.check [status.faults, message.faults, reason.faults, code.faults]
  return {
    status := ← status.get
    message := message.getD ""
    reason := reason.getD ""
    code := ← code.get }

/-- What a response says that has no status object. -/
def bareFailure (r : KubeResponse) : ApiFailure where
  status := statusText r.status
  message := Text.quoted r.body.render
  reason := "Failed to parse error data"
  code := r.status

/-- What a response that failed says. -/
def failure (r : KubeResponse) : ApiFailure :=
  match r.body.value?.map toFailure with
  | some (.ok f) => f
  | _ => r.bareFailure

/-- What a response holds. -/
def read {α : Type} (decode : Decoder α) (r : KubeResponse) : Except KubeError α :=
  if 400 ≤ r.status && r.status < 600 then .error (.api r.failure)
  else
    match r.body.value?.map decode with
    | some (.ok a) => .ok a
    | _ => .error .undecodable

end KubeResponse

end PgSteward
