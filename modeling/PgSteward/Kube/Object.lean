import PgSteward.Json.Decode
import PgSteward.NameMap
import PgSteward.Reference.Basic
import PgSteward.Resource.Database
import PgSteward.Resource.HostCredentials
import PgSteward.Resource.ServiceUser
import PgSteward.Resource.User
import PgSteward.Text.Base64
import PgSteward.Text.Utf8

/-!
# Kubernetes objects

An object has metadata, which say its name and its namespace, and a content of its kind.  Secrets
hold bytes by keys, written to the base 64, and config maps hold texts by keys.  A resource of the
operator has a specification, and a database has a status as well.
-/

namespace PgSteward

/-- Who an object is. -/
structure ObjectMeta where
  name : Option String := none
  /-- The namespace. -/
  space : Option String := none
  /-- What must happen before the object may go. -/
  finalizers : List String := []
  /-- When the object was asked to go. -/
  deletion : Option Instant := none
deriving DecidableEq

namespace ObjectMeta

/-- Decodes any value. -/
def anything : Decoder Unit := fun _ => .ok ()

/-- Decodes an integer. -/
def toInteger : Decoder Unit
  | .number (.integer _) => .ok ()
  | j => j.notA "i64"

/-- Decodes metadata.  The members that are not kept are checked all the same. -/
def decode : Decoder ObjectMeta
  | .object ms => do
      let r := Record.byName ms
      let texts := Json.nullable (Json.toMap Json.toText)
      let annotations := r.optional 0 "annotations" texts
      let creation := r.optional 0 "creationTimestamp" (Json.nullable Instant.decode)
      let grace := r.optional 0 "deletionGracePeriodSeconds" (Json.nullable toInteger)
      let deletion := r.optional 0 "deletionTimestamp" (Json.nullable Instant.decode)
      let finalizers := r.optional 0 "finalizers" (Json.nullable (Json.toList Json.toText))
      let generateName := r.optional 0 "generateName" (Json.nullable Json.toText)
      let generation := r.optional 0 "generation" (Json.nullable toInteger)
      let labels := r.optional 0 "labels" texts
      let fields := r.optional 0 "managedFields" (Json.nullable (Json.toList anything))
      let name := r.optional 0 "name" (Json.nullable Json.toText)
      let space := r.optional 0 "namespace" (Json.nullable Json.toText)
      let owners := r.optional 0 "ownerReferences" (Json.nullable (Json.toList anything))
      let version := r.optional 0 "resourceVersion" (Json.nullable Json.toText)
      let link := r.optional 0 "selfLink" (Json.nullable Json.toText)
      let uid := r.optional 0 "uid" (Json.nullable Json.toText)
      r.check [annotations.faults, creation.faults, grace.faults, deletion.faults,
        finalizers.faults, generateName.faults, generation.faults, labels.faults, fields.faults,
        name.faults, space.faults, owners.faults, version.faults, link.faults, uid.faults]
      return {
        name := name.getD none
        space := space.getD none
        finalizers := (finalizers.getD none).getD []
        deletion := deletion.getD none }
  | j => j.notA "ObjectMeta"

end ObjectMeta

/-! ## Secrets and config maps -/

/-- Decodes one word. -/
def toWord (word : String) : Decoder Unit
  | .text s => if s = word then .ok () else .error (.mistyped (Json.text s).described word)
  | j => j.notA "a string"

/-- Decodes bytes from a text to the base 64. -/
def toBytes : Decoder (List UInt8)
  | .text s =>
      match Text.base64Decode? s.toList with
      | some bytes => .ok bytes
      | none => .error (.rejected "invalid base64")
  | j => j.notA "a base64-encoded string"

/-- Decodes the keys of a secret. -/
def toSecret : Decoder (NameMap (List UInt8))
  | .object ms => do
      let r := Record.byName ms
      let apiVersion := r.optional 0 "apiVersion" (toWord "v1")
      let data := r.optional 0 "data" (Json.nullable (Json.toMap toBytes))
      let immutable := r.optional 0 "immutable" (Json.nullable Json.toBool)
      let kind := r.optional 0 "kind" (toWord "Secret")
      let metadata := r.optional 0 "metadata" (Json.nullable ObjectMeta.decode)
      let texts := r.optional 0 "stringData" (Json.nullable (Json.toMap Json.toText))
      let type := r.optional 0 "type" (Json.nullable Json.toText)
      r.check [apiVersion.faults, data.faults, immutable.faults, kind.faults, metadata.faults,
        texts.faults, type.faults]
      return NameMap.ofPairs ((data.getD none).getD [])
  | j => j.notA "Secret"

/-- Decodes the keys of a config map. -/
def toConfigMap : Decoder (NameMap String)
  | .object ms => do
      let r := Record.byName ms
      let apiVersion := r.optional 0 "apiVersion" (toWord "v1")
      let bytes := r.optional 0 "binaryData" (Json.nullable (Json.toMap toBytes))
      let data := r.optional 0 "data" (Json.nullable (Json.toMap Json.toText))
      let immutable := r.optional 0 "immutable" (Json.nullable Json.toBool)
      let kind := r.optional 0 "kind" (toWord "ConfigMap")
      let metadata := r.optional 0 "metadata" (Json.nullable ObjectMeta.decode)
      r.check [apiVersion.faults, bytes.faults, data.faults, immutable.faults, kind.faults,
        metadata.faults]
      return NameMap.ofPairs ((data.getD none).getD [])
  | j => j.notA "ConfigMap"

/-- The text under a key of a secret. -/
def secretText (secret : Option (NameMap (List UInt8))) (space : String) (k : KeyOf) :
    Except LookupError String :=
  match secret with
  | none => .error (.notFound .secret space k.name)
  | some data =>
      match data[k.key]? with
      | none => .error (.unknownKey .secret space k.name k.key)
      | some bytes =>
          match Text.ofUtf8 bytes with
          | .ok cs => .ok (String.ofList cs)
          | .error fault =>
              .error (.unreadable .secret space k.name s!"key {k.key}: {fault.message}")

/-- The text under a key of a config map. -/
def configMapText (configMap : Option (NameMap String)) (space : String) (k : KeyOf) :
    Except LookupError String :=
  match configMap with
  | none => .error (.notFound .configMap space k.name)
  | some data =>
      match data[k.key]? with
      | none => .error (.unknownKey .configMap space k.name k.key)
      | some value => .ok value

/-! ## Resources -/

/-- A resource of the operator. -/
structure Resource (α β : Type) where
  /-- Who it is. -/
  metadata : ObjectMeta
  /-- What it asks for. -/
  spec : α
  /-- How it stands. -/
  status : Option β := none

/-- Decodes a resource of a type. -/
def Resource.decode {α β : Type} (type : String) (spec : Decoder α) (status : Decoder β) :
    Decoder (Resource α β) := fun j => do
  let r ← Record.of type 3 j
  let metadata := r.required 0 "metadata" ObjectMeta.decode
  let spec := r.required 1 "spec" spec
  let status := r.optional 2 "status" (Json.nullable status)
  r.check [metadata.faults, spec.faults, status.faults]
  return { metadata := ← metadata.get, spec := ← spec.get, status := status.getD none }

/-- A database resource. -/
abbrev DatabaseResource := Resource DatabaseSpec DatabaseStatus

/-- A user resource. -/
abbrev UserResource := Resource UserSpec Unit

/-- A service user resource. -/
abbrev ServiceUserResource := Resource ServiceUserSpec Unit

/-- A host credentials resource. -/
abbrev HostCredentialsResource := Resource HostCredentialsSpec Unit

/-- Decodes a database resource. -/
def toDatabase : Decoder DatabaseResource :=
  Resource.decode "PostgreSQLDatabase" DatabaseSpec.decode DatabaseStatus.decode

/-- Decodes a user resource. -/
def toUser : Decoder UserResource :=
  Resource.decode "PostgreSQLUser" UserSpec.decode ObjectMeta.anything

/-- Decodes a service user resource. -/
def toServiceUser : Decoder ServiceUserResource :=
  Resource.decode "PostgreSQLServiceUser" ServiceUserSpec.decode ObjectMeta.anything

/-- Decodes a host credentials resource. -/
def toHostCredentials : Decoder HostCredentialsResource :=
  Resource.decode "PostgreSQLHostCredentials" HostCredentialsSpec.decode ObjectMeta.anything

/-- Decodes a list of objects. -/
def toObjects {α : Type} (item : Decoder α) : Decoder (List α)
  | .object ms => do
      let r := Record.byName ms
      let items := r.required 0 "items" (Json.toList item)
      r.check [items.faults]
      items.get
  | j => j.notA "struct ObjectList"

end PgSteward
