import PgSteward.Definition.Schema
import PgSteward.Kube.Request
import PgSteward.Resource.Database
import PgSteward.Yaml.Block

/-!
# Resource definitions

A Kubernetes API learns about a kind of resource from a definition, which names the kind and gives
the schema of its specification and, for databases, of its status.  `definitions` are those of the
four kinds of the operator, in the order in which they are installed.
-/

namespace PgSteward

/-- The definition of a kind of resource. -/
structure ResourceDefinition where
  /-- The name of the kind. -/
  kind : String
  /-- The word for the resources of the kind. -/
  plural : String
  /-- A short word for the same. -/
  shortName : String
  /-- The schema of the specification. -/
  spec : Schema
  /-- The schema of the status, if there is one. -/
  status : Option Schema := none

/-! ## References -/

/-- A key of an object, or null. -/
def keySchema : Schema :=
  .record { isNullable := true } [("name", .plainText), ("key", .plainText)] ["key", "name"]

/-- A reference. -/
def referenceSchema (note : SchemaNote) : Schema :=
  .record note
    [("value", .plainText),
      ("valueFrom", .record { isNullable := true }
        [("secretKeyRef", keySchema), ("configMapKeyRef", keySchema)] [])]
    []

/-- What a reference is. -/
def referenceText : String := "A value given inline or read from a Secret or ConfigMap key"

/-- A reference that must be there. -/
def requiredReference : Schema := referenceSchema { description := some referenceText }

/-- A reference that may be null. -/
def nullableReference (description : String) : Schema :=
  referenceSchema { description := some description, isNullable := true }

/-- A reference that may be left out and is empty then. -/
def optionalReference : Schema :=
  referenceSchema { description := some referenceText, default := some (.object []) }

/-! ## Databases -/

/-- What a database resource asks for. -/
def databaseSchema : Schema :=
  .record { description := some "Database, owning role and schema on a PostgreSQL host" }
    [("name", .describedText "Name of the database and of its schema"),
      ("user", nullableReference "Owning role, defaults to the database name"),
      ("password", nullableReference referenceText),
      ("isShared", .flag ("Database is owned by the manager role instead of " ++ "`user`")),
      ("host", nullableReference referenceText),
      ("hostCredentials", .text
        { description := some "Name of a PostgreSQLHostCredentials resource in the same namespace"
          isNullable := true } none []),
      ("extensions", .list { default := some (.list []) }
        (.record {} [("name", .plainText)] ["name"]))]
    ["name"]

/-- How a database stands. -/
def databaseStatusSchema : Schema :=
  .record { isNullable := true }
    [("phase", .text { isNullable := true } none (Phase.all.map Phase.word)),
      ("phaseUpdated", .instant),
      ("host", .optionalText),
      ("user", .optionalText),
      ("error", .optionalText)]
    []

/-- Databases. -/
def databaseDefinition : ResourceDefinition where
  kind := "PostgreSQLDatabase"
  plural := KubeKind.database.plural
  shortName := "pgdb"
  spec := databaseSchema
  status := some databaseStatusSchema

/-! ## Host credentials -/

/-- What a host credentials resource holds. -/
def hostCredentialsSchema : Schema :=
  .record { description := some "Admin credentials for a PostgreSQL host" }
    [("host", referenceSchema { description := some "`hostname:port`" }),
      ("user", requiredReference),
      ("password", requiredReference),
      ("params", nullableReference ("Space separated " ++ "`key=value`" ++ " driver parameters"))]
    ["host", "password", "user"]

/-- Host credentials. -/
def hostCredentialsDefinition : ResourceDefinition where
  kind := "PostgreSQLHostCredentials"
  plural := KubeKind.hostCredentials.plural
  shortName := "pghost"
  spec := hostCredentialsSchema

/-! ## Users -/

/-- The members of an intent. -/
def intentMembers : List (String × Schema) :=
  [("host", requiredReference),
    ("allDatabases", .flag "Grant access to every database on the host"),
    ("database", optionalReference),
    ("schema", optionalReference),
    ("reason", .optionalText),
    ("start", .instant),
    ("stop", .instant)]

/-- An intent to write. -/
def writeIntentMembers : List (String × Schema) :=
  intentMembers ++ [("extended", .flag "Also grant TRUNCATE, REFERENCES and TRIGGER")]

/-- What a user resource asks for. -/
def userSchema : Schema :=
  .record { description := some "Developer access to databases through IAM authentication" }
    [("name", .describedText
        ("Login name, " ++ "`.`" ++ " is replaced with " ++ "`_`" ++ " in PostgreSQL")),
      ("read", .list {} (.record {} intentMembers ["host"])),
      ("write", .list {} (.record {} writeIntentMembers ["host"]))]
    ["name"]

/-- Users. -/
def userDefinition : ResourceDefinition where
  kind := "PostgreSQLUser"
  plural := KubeKind.user.plural
  shortName := "pguser"
  spec := userSchema

/-! ## Service users -/

/-- What a service user resource asks for. -/
def serviceUserSchema : Schema :=
  .record { description := some "Password authenticated login role for services" }
    [("name", .plainText),
      ("host", requiredReference),
      ("password", nullableReference referenceText),
      ("roles", .list { default := some (.list []) }
        (.record {} [("roleName", .plainText)] ["roleName"]))]
    ["host", "name"]

/-- Service users. -/
def serviceUserDefinition : ResourceDefinition where
  kind := "PostgreSQLServiceUser"
  plural := KubeKind.serviceUser.plural
  shortName := "pgserviceuser"
  spec := serviceUserSchema

/-! ## Definitions as values -/

namespace ResourceDefinition

/-- The group of the kinds of the operator. -/
def group : String := "postgresql.lunar.tech"

/-- The version of the kinds of the operator. -/
def version : String := "v1alpha1"

/-- The members of a resource that have a schema. -/
def parts (d : ResourceDefinition) : List (String × Schema) :=
  ("spec", d.spec) :: (d.status.map fun s => ("status", s)).toList

/-- The schema of a resource. -/
def schema (d : ResourceDefinition) : Schema :=
  .object
    { description := some (s!"Auto-generated derived type for {d.kind}Spec via " ++
        "`CustomResource`") }
    (some d.kind) d.parts ["spec"]

/-- The names of a kind. -/
def names (d : ResourceDefinition) : Json :=
  .ofMembers [("kind", .text d.kind), ("plural", .text d.plural),
    ("singular", .text (String.ofList (d.kind.toList.map Char.toLower))),
    ("shortNames", .ofTexts [d.shortName]), ("categories", .list [])]

/-- The one version of a kind. -/
def served (d : ResourceDefinition) : Json :=
  .ofMembers [("name", .text version), ("served", .bool true), ("storage", .bool true),
    ("additionalPrinterColumns", .list []),
    ("schema", .object [("openAPIV3Schema", d.schema.encode)]),
    ("subresources", .object (if d.status.isSome then [("status", .object [])] else []))]

/-- A definition as a value. -/
def encode (d : ResourceDefinition) : Json :=
  .ofMembers [("apiVersion", .text "apiextensions.k8s.io/v1"),
    ("kind", .text "CustomResourceDefinition"),
    ("metadata", .object [("name", .text s!"{d.plural}.{group}")]),
    ("spec", .ofMembers [("group", .text group), ("names", d.names),
      ("scope", .text "Namespaced"), ("versions", .list [d.served])])]

end ResourceDefinition

/-- The definitions of all kinds of resources. -/
def definitions : List ResourceDefinition :=
  [databaseDefinition, hostCredentialsDefinition, userDefinition, serviceUserDefinition]

/-- All definitions as one text, a document for each. -/
def definitionsText : String := String.join (definitions.map fun d => Yaml.document d.encode)

end PgSteward
