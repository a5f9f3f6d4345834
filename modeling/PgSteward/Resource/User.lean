import PgSteward.Resource.Database

/-!
# Users

A user resource gives a developer access to databases.  Each intent names a database on a host, or
all databases of a host, and may be limited to a span of time.  A write intent may ask for the
extended privileges; on the wire it is an access intent with one member more.
-/

namespace PgSteward

/-- The access to a database, or to all databases of a host. -/
structure AccessIntent where
  host : Reference
  /-- Whether every database of the host is meant. -/
  allDatabases : Bool := false
  database : Reference := {}
  /-- The schema; without one it has the name of the database. -/
  schema : Reference := {}
  /-- Why the access is needed. -/
  reason : String := ""
  /-- The first instant of the access. -/
  start : Option Instant := none
  /-- The first instant after the access. -/
  stop : Option Instant := none
deriving DecidableEq

/-- The access to change data. -/
structure WriteIntent where
  access : AccessIntent
  /-- Whether the extended privileges are asked for. -/
  extended : Bool := false
deriving DecidableEq

/-- What a user resource asks for. -/
structure UserSpec where
  /-- The name of the user. -/
  name : String
  /-- The databases to read. -/
  read : List AccessIntent := []
  /-- The databases to write. -/
  write : List WriteIntent := []
deriving DecidableEq

/-- Whether an instant lies in the span of an intent. -/
def AccessIntent.isActive (a : AccessIntent) (now : Instant) : Bool :=
  (a.start.all fun start => !now.before start) && (a.stop.all fun stop => now.before stop)

/-! ## Wire form -/

namespace AccessIntent

/-- Decodes an access intent from its record. -/
def ofRecord (r : Record) : Except DecodeError AccessIntent := do
  let host := r.required 0 "host" Reference.decode
  let allDatabases := r.optional 1 "allDatabases" Json.toBool
  let database := r.optional 2 "database" Reference.decode
  let schema := r.optional 3 "schema" Reference.decode
  let reason := r.optional 4 "reason" Json.toText
  let start := r.optional 5 "start" (Json.nullable Instant.decode)
  let stop := r.optional 6 "stop" (Json.nullable Instant.decode)
  r.check [host.faults, allDatabases.faults, database.faults, schema.faults, reason.faults,
    start.faults, stop.faults]
  return {
    host := ← host.get
    allDatabases := allDatabases.getD false
    database := database.getD {}
    schema := schema.getD {}
    reason := reason.getD ""
    start := start.getD none
    stop := stop.getD none }

/-- Decodes an access intent. -/
def decode : Decoder AccessIntent := fun j => do
  let r ← Record.of "AccessSpec" 7 j
  ofRecord r

/-- The members of an access intent.  Absent instants are left out. -/
def members (a : AccessIntent) : JsonMembers :=
  written "host" a.host.encode ++
    written "allDatabases" (.bool a.allDatabases) ++
    written "database" a.database.encode ++
    written "schema" a.schema.encode ++
    written "reason" (.text a.reason) ++
    writtenIf "start" Instant.encode a.start ++
    writtenIf "stop" Instant.encode a.stop

/-- Encodes an access intent. -/
def encode (a : AccessIntent) : Json := .object a.members

end AccessIntent

namespace WriteIntent

/-- Decodes a write intent, which is always an object.  Its own member is looked at first. -/
def decode : Decoder WriteIntent
  | .object ms => do
      let r := Record.byName ms
      let extended := r.optional 0 "extended" Json.toBool
      r.check [extended.faults]
      let access ← (AccessIntent.ofRecord r).mapError DecodeError.merged
      return { access, extended := extended.getD false }
  | j => j.notA "struct WriteAccessSpec"

/-- Encodes a write intent. -/
def encode (w : WriteIntent) : Json :=
  .object (w.access.members ++ written "extended" (.bool w.extended))

end WriteIntent

namespace UserSpec

/-- Decodes a user. -/
def decode : Decoder UserSpec := fun j => do
  let r ← Record.of "PostgreSQLUserSpec" 3 j
  let name := r.required 0 "name" Json.toText
  let read := r.optional 1 "read" (Json.toList AccessIntent.decode)
  let write := r.optional 2 "write" (Json.toList WriteIntent.decode)
  r.check [name.faults, read.faults, write.faults]
  return { name := ← name.get, read := read.getD [], write := write.getD [] }

/-- Encodes a user.  Empty lists are left out. -/
def encode (u : UserSpec) : Json :=
  .object (written "name" (.text u.name) ++
    (if u.read.isEmpty then [] else written "read" (.list (u.read.map AccessIntent.encode))) ++
    (if u.write.isEmpty then [] else written "write" (.list (u.write.map WriteIntent.encode))))

end UserSpec

end PgSteward
