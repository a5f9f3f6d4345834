import PgSteward.Postgres.Connection

/-!
# Logins as entries

The login of an administrator is given as one entry, `host=user:password` or
`host=user:password=params`.  Blanks around an entry do not count.  The host ends at the first `=`,
the user at the first `:` after it, and the password at the next `=`, so only the parameters may
hold any character.  Neither the host nor the user is empty.
-/

namespace PgSteward

/-- The login of an administrator on a host. -/
structure HostEntry where
  /-- The host with its port. -/
  host : String
  login : AdminLogin
deriving DecidableEq, Repr

/-- What is wrong with an entry. -/
structure HostEntry.Fault where
  /-- The text of the entry up to its first `=`, which never holds a password. -/
  host : String
deriving DecidableEq, Repr

/-- The text of a fault. -/
def HostEntry.Fault.message (f : HostEntry.Fault) : String :=
  s!"host credentials for {Text.quoted f.host} must be host=user:password[=params]"

namespace HostEntry

/-- The entry that some characters are. -/
def read? (cs : List Char) : Option HostEntry := do
  let (host, rest) ← Text.cutAt '=' (Text.trim cs)
  let (user, rest) ← Text.cutAt ':' rest
  let (password, params) := (Text.cutAt '=' rest).getD (rest, [])
  if host.isEmpty || user.isEmpty then none
  else
    some {
      host := String.ofList host
      login := {
        user := String.ofList user
        password := String.ofList password
        params := String.ofList params } }

/-- The entry that a text is. -/
def parse (s : String) : Except Fault HostEntry :=
  match read? s.toList with
  | some e => .ok e
  | none => .error ⟨String.ofList (s.toList.takeWhile (· ≠ '='))⟩

/-- The text of an entry, with its parameters. -/
def render (e : HostEntry) : String :=
  s!"{e.host}={e.login.user}:{e.login.password}={e.login.params}"

example : (parse " pg:5432=admin:a:b=sslmode=require").toOption =
    some ⟨"pg:5432", ⟨"admin", "a:b", "sslmode=require"⟩⟩ := by decide +kernel

end HostEntry

end PgSteward
