import PgSteward.Postgres.Error
import PgSteward.Text.Blank
import PgSteward.Text.Cut
import PgSteward.Text.Numeral

/-!
# Connections

A connection leads to a database on a host, as a role with a password.  The host has a port after
its last colon, 5432 when there is none.  Parameters are words of the form `key=value`; two keys
choose how the connection is encrypted and what it calls itself, and all others are options of the
session.
-/

namespace PgSteward

/-- The login that the operator uses on a host. -/
structure AdminLogin where
  /-- The role. -/
  user : String := ""
  password : String := ""
  /-- The parameters of its connections. -/
  params : String := ""
deriving DecidableEq, Repr

/-- A database that is wanted on a host, with its owning role. -/
structure DatabaseTarget where
  /-- The name of the database and of its schema. -/
  name : String := ""
  /-- The owning role. -/
  user : String := ""
  /-- The password of the owning role. -/
  password : String := ""
  /-- The parameters of its connections. -/
  params : String := ""
  /-- Whether the manager role owns the database instead. -/
  shared : Bool := false
deriving DecidableEq, Repr

/-- Where a connection leads. -/
structure ConnectionTarget where
  /-- The host with its port. -/
  host : String
  database : String
  /-- The role. -/
  user : String
  password : String
  /-- The parameters. -/
  params : String
deriving DecidableEq, Repr

namespace ConnectionTarget

/-- The connection of an administrator. -/
def admin (host database : String) (login : AdminLogin) : ConnectionTarget :=
  { host, database, user := login.user, password := login.password, params := login.params }

/-- The text for a connection, without its password. -/
def render (t : ConnectionTarget) : String := s!"{t.user}@{t.host}/{t.database}"

end ConnectionTarget

/-! ## Texts for people

No text that is meant for people shows a password. -/

/-- The text for a login. -/
def AdminLogin.render (a : AdminLogin) : String :=
  s!"AdminCredentials \x7b user: {Text.quoted a.user}, params: {Text.quoted a.params}, .. \x7d"

/-- The text for a database that is wanted. -/
def DatabaseTarget.render (t : DatabaseTarget) : String :=
  s!"Credentials \x7b name: {Text.quoted t.name}, user: {Text.quoted t.user}, " ++
    s!"shared: {t.shared}, .. \x7d"

/-! ## Settings -/

/-- How a connection is encrypted. -/
inductive SslMode where
  /-- Not at all. -/
  | disable
  /-- If the server insists. -/
  | allow
  /-- If the server can. -/
  | prefer
  /-- Always. -/
  | require
  /-- Always, with a trusted certificate. -/
  | verifyCa
  /-- Always, with a trusted certificate for this host. -/
  | verifyFull
deriving DecidableEq, Repr

namespace SslMode

/-- The modes by their names. -/
def names : List (String × SslMode) :=
  [("disable", .disable), ("allow", .allow), ("prefer", .prefer), ("require", .require),
    ("verify-ca", .verifyCa), ("verify-full", .verifyFull)]

/-- The mode of a name, in whatever case its ASCII letters are. -/
def ofName (name : String) : Except SqlError SslMode :=
  match names.find? fun m => m.1.toList = name.toList.map Char.toLower with
  | some m => .ok m.2
  | none => .error (.driver (.unknownSslMode name))

end SslMode

/-- What a connection is opened with. -/
structure ConnectionSettings where
  /-- The name of the host. -/
  host : String
  port : Nat
  database : String
  /-- The role. -/
  user : String
  /-- How the connection is encrypted. -/
  sslMode : SslMode := .prefer
  /-- What the connection calls itself. -/
  applicationName : Option String := none
  /-- The options of the session, in order. -/
  options : List (String × String) := []
deriving DecidableEq, Repr

/-- The port of a host that names none. -/
def defaultPort : Nat := 5432

/-- The pairs among the words of a parameter text. -/
def paramsOf (s : String) : List (String × String) :=
  (Text.words s.toList).filterMap fun word =>
    (Text.cutAt '=' word).map fun kv => (String.ofList kv.1, String.ofList kv.2)

/-- The name and the port of a host. -/
def hostAndPort (host : String) : Except SqlError (String × Nat) :=
  match Text.cutAtLast ':' host.toList with
  | none => if host.isEmpty then .error (.invalidHost host) else .ok (host, defaultPort)
  | some (name, port) =>
      match Text.naturalBelow? Text.portLimit port with
      | none => .error (.invalidHost host)
      | some n => if name.isEmpty then .error (.invalidHost host) else .ok (String.ofList name, n)

namespace ConnectionSettings

/-- The settings with one parameter more. -/
def withParam (s : ConnectionSettings) (key value : String) : Except SqlError ConnectionSettings :=
  if key = "sslmode" then do
    let mode ← SslMode.ofName value
    return { s with sslMode := mode }
  else if key = "application_name" then .ok { s with applicationName := some value }
  else .ok { s with options := s.options ++ [(key, value)] }

/-- The settings with some parameters more, up to the first fault. -/
def withParams (s : ConnectionSettings) :
    List (String × String) → Except SqlError ConnectionSettings
  | [] => .ok s
  | (key, value) :: rest => do
      let s ← s.withParam key value
      s.withParams rest

/-- The options of the session as the server takes them, absent when there are none. -/
def optionsText (s : ConnectionSettings) : Option String :=
  if s.options.isEmpty then none
  else some (" ".intercalate (s.options.map fun kv => s!"-c {kv.1}={kv.2}"))

end ConnectionSettings

/-- The settings that a connection is opened with. -/
def ConnectionTarget.settings (t : ConnectionTarget) : Except SqlError ConnectionSettings := do
  let (host, port) ← hostAndPort t.host
  let s : ConnectionSettings := { host, port, database := t.database, user := t.user }
  s.withParams (paramsOf t.params)

end PgSteward
