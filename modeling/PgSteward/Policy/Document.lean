import PgSteward.Json.Decode
import PgSteward.NameMap

/-!
# Policy documents

A policy document is a list of statements.  A statement allows actions on resources under the
condition that keys of the request match given patterns; the key of the user's identity says whom
the statement is for.

On the wire the names of the members start with capital letters, and they are written in the order
of declaration.
-/

namespace PgSteward

/-- A statement of a policy. -/
structure PolicyStatement where
  /-- Whether the statement allows or denies. -/
  effect : String
  action : List String
  resource : List String
  /-- The patterns that keys of the request must match. -/
  patterns : NameMap String
deriving DecidableEq

/-- The version of the language of policies. -/
def policyLanguage : String := "2012-10-17"

/-- A policy document. -/
structure PolicyDocument where
  /-- The version of the language. -/
  version : String := policyLanguage
  statements : List PolicyStatement := []
deriving DecidableEq

namespace PolicyStatement

/-- The key of the user's identity. -/
def userKey : String := "aws:userid"

/-- Whom a statement is for. -/
def userId? (s : PolicyStatement) : Option String := s.patterns[userKey]?

/-! ## Wire form -/

/-- Decodes the patterns of a statement. -/
def decodePatterns : Decoder (NameMap String) := fun j => do
  let r ← Record.of "Condition" 1 j
  let patterns := r.required 0 "StringLike" (Json.toMap Json.toText)
  r.check [patterns.faults]
  return NameMap.ofPairs (← patterns.get)

/-- Encodes the patterns of a statement. -/
def encodePatterns (patterns : NameMap String) : Json :=
  .object [("StringLike", .object (patterns.toList.map fun p => (p.1, .text p.2)))]

/-- Decodes a statement. -/
def decode : Decoder PolicyStatement := fun j => do
  let r ← Record.of "Statement" 4 j
  let effect := r.required 0 "Effect" Json.toText
  let action := r.required 1 "Action" (Json.toList Json.toText)
  let resource := r.required 2 "Resource" (Json.toList Json.toText)
  let patterns := r.required 3 "Condition" decodePatterns
  r.check [effect.faults, action.faults, resource.faults, patterns.faults]
  return {
    effect := ← effect.get
    action := ← action.get
    resource := ← resource.get
    patterns := ← patterns.get }

/-- Encodes a statement. -/
def encode (s : PolicyStatement) : Json :=
  .object [("Effect", .text s.effect), ("Action", .ofTexts s.action),
    ("Resource", .ofTexts s.resource), ("Condition", encodePatterns s.patterns)]

end PolicyStatement

namespace PolicyDocument

/-- Decodes a document. -/
def decode : Decoder PolicyDocument := fun j => do
  let r ← Record.of "PolicyDocument" 2 j
  let version := r.required 0 "Version" Json.toText
  let statements := r.required 1 "Statement" (Json.toList PolicyStatement.decode)
  r.check [version.faults, statements.faults]
  return { version := ← version.get, statements := ← statements.get }

/-- Encodes a document. -/
def encode (d : PolicyDocument) : Json :=
  .object [("Version", .text d.version),
    ("Statement", .list (d.statements.map PolicyStatement.encode))]

end PolicyDocument

end PgSteward
