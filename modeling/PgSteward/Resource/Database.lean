import PgSteward.Instant.Printer
import PgSteward.Instant.Reader
import PgSteward.Reference.Basic

/-!
# Databases

A database resource asks for a database with its owning role and its schema on a host.  The host is
named by a reference or through a host credentials resource.  Its status says how the last attempt
went.
-/

namespace PgSteward

/-- Decodes an instant. -/
def Instant.decode : Decoder Instant :=
  Json.toParsed "an RFC 3339 formatted date and time string" fun s =>
    (Instant.parse s).mapError Instant.Fault.message

/-- Encodes an instant. -/
def Instant.encode (t : Instant) : Json := .text t.render

/-- An extension of a database. -/
structure DatabaseExtension where
  /-- The name of the extension. -/
  name : String
deriving DecidableEq, Repr

/-- What a database resource asks for. -/
structure DatabaseSpec where
  /-- The name of the database and of its schema. -/
  name : String
  /-- The owning role; without one it has the name of the database. -/
  user : Option Reference := none
  /-- The password of the owning role. -/
  password : Option Reference := none
  /-- Whether the manager role owns the database instead. -/
  isShared : Bool := false
  host : Option Reference := none
  /-- The name of a host credentials resource of the same namespace. -/
  hostCredentials : Option String := none
  /-- The extensions to install. -/
  extensions : List DatabaseExtension := []
deriving DecidableEq, Repr

/-- How a database stands. -/
inductive Phase where
  /-- It is as its resource asks. -/
  | running
  /-- The last attempt failed and is repeated. -/
  | failed
  /-- The resource must change first. -/
  | invalid
deriving DecidableEq, Repr

/-- The status of a database resource. -/
structure DatabaseStatus where
  /-- How the database stands. -/
  phase : Option Phase := none
  /-- When the status was last written. -/
  phaseUpdated : Option Instant := none
  /-- The host of the last success. -/
  host : String := ""
  /-- The owning role of the last success. -/
  user : String := ""
  /-- The error of the last attempt. -/
  error : String := ""
deriving DecidableEq

/-! ## Wire form -/

/-- Decodes an extension. -/
def DatabaseExtension.decode : Decoder DatabaseExtension := fun j => do
  let r ← Record.of "PostgreSQLDatabaseExtension" 1 j
  let name := r.required 0 "name" Json.toText
  r.check [name.faults]
  return { name := ← name.get }

/-- Encodes an extension. -/
def DatabaseExtension.encode (e : DatabaseExtension) : Json := .object [("name", .text e.name)]

/-- Decodes a database. -/
def DatabaseSpec.decode : Decoder DatabaseSpec := fun j => do
  let r ← Record.of "PostgreSQLDatabaseSpec" 7 j
  let name := r.required 0 "name" Json.toText
  let user := r.optional 1 "user" (Json.nullable Reference.decode)
  let password := r.optional 2 "password" (Json.nullable Reference.decode)
  let isShared := r.optional 3 "isShared" Json.toBool
  let host := r.optional 4 "host" (Json.nullable Reference.decode)
  let hostCredentials := r.optional 5 "hostCredentials" (Json.nullable Json.toText)
  let extensions := r.optional 6 "extensions" (Json.toList DatabaseExtension.decode)
  r.check [name.faults, user.faults, password.faults, isShared.faults, host.faults,
    hostCredentials.faults, extensions.faults]
  return {
    name := ← name.get
    user := user.getD none
    password := password.getD none
    isShared := isShared.getD false
    host := host.getD none
    hostCredentials := hostCredentials.getD none
    extensions := extensions.getD [] }

/-- Encodes a database.  Absent references and names are left out. -/
def DatabaseSpec.encode (d : DatabaseSpec) : Json :=
  .object (written "name" (.text d.name) ++
    writtenIf "user" Reference.encode d.user ++
    writtenIf "password" Reference.encode d.password ++
    written "isShared" (.bool d.isShared) ++
    writtenIf "host" Reference.encode d.host ++
    writtenIf "hostCredentials" Json.text d.hostCredentials ++
    written "extensions" (.list (d.extensions.map DatabaseExtension.encode)))

namespace Phase

/-- The word for a phase. -/
def word : Phase → String
  | .running => "Running"
  | .failed => "Failed"
  | .invalid => "Invalid"

/-- All phases. -/
def all : List Phase := [.running, .failed, .invalid]

/-- The phase of a word. -/
def ofWord (w : String) : Except DecodeError Phase :=
  match all.find? fun p => p.word = w with
  | some p => .ok p
  | none => .error (.unknownVariant w (all.map word))

/-- Decodes a phase: its word, or an object with the word as its only name and null as its
value. -/
def decode : Decoder Phase
  | .text w => ofWord w
  | .object [(w, j)] => do
      let p ← ofWord w
      match j with
      | .null => return p
      | j => j.notA "unit"
  | .object _ => .error .notOneVariant
  | j => j.notA "string or map"

/-- Encodes a phase. -/
def encode (p : Phase) : Json := .text p.word

theorem decode_encode (p : Phase) : decode p.encode = .ok p := by cases p <;> rfl

end Phase

/-- Decodes a status. -/
def DatabaseStatus.decode : Decoder DatabaseStatus := fun j => do
  let r ← Record.of "PostgreSQLDatabaseStatus" 5 j
  let phase := r.optional 0 "phase" (Json.nullable Phase.decode)
  let phaseUpdated := r.optional 1 "phaseUpdated" (Json.nullable Instant.decode)
  let host := r.optional 2 "host" Json.toText
  let user := r.optional 3 "user" Json.toText
  let error := r.optional 4 "error" Json.toText
  r.check [phase.faults, phaseUpdated.faults, host.faults, user.faults, error.faults]
  return {
    phase := phase.getD none
    phaseUpdated := phaseUpdated.getD none
    host := host.getD ""
    user := user.getD ""
    error := error.getD "" }

/-- Encodes a status.  An absent phase and an absent time are left out. -/
def DatabaseStatus.encode (s : DatabaseStatus) : Json :=
  .object (writtenIf "phase" Phase.encode s.phase ++
    writtenIf "phaseUpdated" Instant.encode s.phaseUpdated ++
    written "host" (.text s.host) ++
    written "user" (.text s.user) ++
    written "error" (.text s.error))

end PgSteward
