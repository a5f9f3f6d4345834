import PgSteward.Json.Decode

/-!
# References

A reference stands for a text: it gives it inline, or names a key of a secret or of a config map.
An inline value wins over the others, and a secret over a config map.  A reference that gives and
names nothing has no value.

`lookup_eq_noValue_iff` says that a reference is without a value exactly when it is empty.
-/

namespace PgSteward

/-- A key of a named object. -/
structure KeyOf where
  /-- The name of the object. -/
  name : String
  /-- The key in the object. -/
  key : String
deriving DecidableEq, Repr

/-- The objects that a reference names. -/
structure ReferenceSource where
  secret : Option KeyOf := none
  configMap : Option KeyOf := none
deriving DecidableEq, Repr

/-- A text given inline or by a key of another object. -/
structure Reference where
  /-- The text given inline, empty for none. -/
  value : String := ""
  /-- The objects named. -/
  source : Option ReferenceSource := none
deriving DecidableEq, Repr

/-- The objects that hold texts by keys. -/
inductive HolderKind where
  | secret
  | configMap
deriving DecidableEq, Repr

/-- The kind of an object in a message. -/
def HolderKind.word : HolderKind → String
  | .secret => "secret"
  | .configMap => "configmap"

/-- Why a reference has no text. -/
inductive LookupError where
  /-- The reference is empty. -/
  | noValue
  /-- The object does not exist. -/
  | notFound (kind : HolderKind) (space name : String)
  /-- The object does not have the key. -/
  | unknownKey (kind : HolderKind) (space name key : String)
  /-- The object cannot be read. -/
  | unreadable (kind : HolderKind) (space name reason : String)
deriving DecidableEq, Repr

/-- The text of an error. -/
def LookupError.message : LookupError → String
  | .noValue => "no value"
  | .notFound kind space name => s!"{kind.word} {space}/{name} not found"
  | .unknownKey kind space name key => s!"key {key} not found in {kind.word} {space}/{name}"
  | .unreadable kind space name reason => s!"read {kind.word} {space}/{name}: {reason}"

/-- Where the text of a reference comes from. -/
inductive Lookup where
  /-- The reference gives it. -/
  | inline (value : String)
  /-- An object holds it. -/
  | held (kind : HolderKind) (selected : KeyOf)
deriving DecidableEq, Repr

namespace Reference

/-- A reference that gives its text. -/
def inline (value : String) : Reference := { value }

/-- A reference to a key of a secret. -/
def secret (name key : String) : Reference := { source := some { secret := some ⟨name, key⟩ } }

/-- A reference to a key of a config map. -/
def configMap (name key : String) : Reference :=
  { source := some { configMap := some ⟨name, key⟩ } }

/-- Whether a reference gives and names nothing. -/
def isEmpty (r : Reference) : Bool :=
  r.value.isEmpty && (r.source.all fun s => s.secret.isNone && s.configMap.isNone)

/-- Where the text of a reference comes from. -/
def lookup (r : Reference) : Except LookupError Lookup :=
  if !r.value.isEmpty then .ok (.inline r.value)
  else
    match r.source with
    | none => .error .noValue
    | some s =>
        match s.secret, s.configMap with
        | some k, _ => .ok (.held .secret k)
        | none, some k => .ok (.held .configMap k)
        | none, none => .error .noValue

/-- A reference has no value exactly when it is empty. -/
theorem lookup_eq_noValue_iff (r : Reference) :
    r.lookup = .error .noValue ↔ r.isEmpty = true := by
  obtain ⟨value, source⟩ := r
  cases hv : value.isEmpty with
  | false => simp [lookup, isEmpty, hv]
  | true =>
      cases source with
      | none => simp [lookup, isEmpty, hv]
      | some s =>
          obtain ⟨secret, configMap⟩ := s
          cases secret <;> cases configMap <;> simp [lookup, isEmpty, hv]

end Reference

/-! ## Wire form -/

namespace KeyOf

/-- Decodes a key of an object. -/
def decode : Decoder KeyOf := fun j => do
  let r ← Record.of "KeySelector" 2 j
  let name := r.required 0 "name" Json.toText
  let key := r.required 1 "key" Json.toText
  r.check [name.faults, key.faults]
  return { name := ← name.get, key := ← key.get }

/-- Encodes a key of an object. -/
def encode (k : KeyOf) : Json := .object [("name", .text k.name), ("key", .text k.key)]

end KeyOf

namespace ReferenceSource

/-- Decodes the objects that a reference names. -/
def decode : Decoder ReferenceSource := fun j => do
  let r ← Record.of "ResourceVarSource" 2 j
  let secret := r.optional 0 "secretKeyRef" (Json.nullable KeyOf.decode)
  let configMap := r.optional 1 "configMapKeyRef" (Json.nullable KeyOf.decode)
  r.check [secret.faults, configMap.faults]
  return { secret := secret.getD none, configMap := configMap.getD none }

/-- Encodes the objects that a reference names. -/
def encode (s : ReferenceSource) : Json :=
  .object (writtenIf "secretKeyRef" KeyOf.encode s.secret ++
    writtenIf "configMapKeyRef" KeyOf.encode s.configMap)

end ReferenceSource

namespace Reference

/-- Decodes a reference. -/
def decode : Decoder Reference := fun j => do
  let r ← Record.of "ResourceVar" 2 j
  let value := r.optional 0 "value" Json.toText
  let source := r.optional 1 "valueFrom" (Json.nullable ReferenceSource.decode)
  r.check [value.faults, source.faults]
  return { value := value.getD "", source := source.getD none }

/-- Encodes a reference.  An empty text is left out. -/
def encode (r : Reference) : Json :=
  .object ((if r.value.isEmpty then [] else written "value" (.text r.value)) ++
    writtenIf "valueFrom" ReferenceSource.encode r.source)

end Reference

end PgSteward
