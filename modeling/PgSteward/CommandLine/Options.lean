import PgSteward.Host.Entry
import PgSteward.Settings
import PgSteward.Text.Cut
import PgSteward.Text.Numeral

/-!
# Options

Every setting has an option of the command line and a variable of the environment.  A value is a
text that is put into the settings; the value of some options is a list with commas, and these may
be given several times.
-/

namespace PgSteward

/-- Why the settings cannot be read. -/
inductive OptionFault where
  /-- A word is no option, and no option waits for a value. -/
  | unknownWord
  /-- An option has no value. -/
  | missingValue
  /-- The value of an option is none of those that it may have. -/
  | unknownValue
  /-- The value of an option is malformed. -/
  | malformedValue
  /-- An option is given twice. -/
  | repeated
  /-- The request for help has a value. -/
  | needlessValue
  /-- Help is asked for. -/
  | helpWanted
deriving DecidableEq, Repr

/-- An option. -/
structure SettingOption where
  /-- The name, without its dashes. -/
  name : String
  /-- The name of the variable. -/
  envName : String
  /-- Whether the option may be given several times. -/
  repeats : Bool
  /-- The settings with a value.  `isFirst` tells the first value from those that add to it. -/
  put : (isFirst : Bool) → (value : String) → Settings → Except OptionFault Settings

namespace SettingOption

/-- The pieces of a list with commas. -/
def itemsOf (value : String) : List String := (Text.pieces ',' value.toList).map String.ofList

/-- The names in a list with commas.  Empty ones do not count. -/
def namesOf (value : String) : List String := (itemsOf value).filter fun name => !name.isEmpty

/-- Adds the logins of entries, the first fault first. -/
def addLogins : List String → Settings → Except OptionFault Settings
  | [], s => .ok s
  | entry :: rest, s =>
      match HostEntry.parse entry with
      | .ok e => addLogins rest { s with logins := s.logins.insert e.host e.login }
      | .error _ => .error .malformedValue

/-- An option with a list of entries. -/
def ofLogins (name envName : String) : SettingOption where
  name := name
  envName := envName
  repeats := true
  put := fun _ value s => addLogins (itemsOf value) s

/-- An option with a list of names. -/
def ofNames (name envName : String) (set : Bool → List String → Settings → Settings) :
    SettingOption where
  name := name
  envName := envName
  repeats := true
  put := fun isFirst value s => .ok (set isFirst (namesOf value) s)

/-- An option with a text. -/
def ofText (name envName : String) (set : String → Settings → Settings) : SettingOption where
  name := name
  envName := envName
  repeats := false
  put := fun _ value s => .ok (set value s)

/-- An option with a truth value. -/
def ofFlag (name envName : String) (set : Bool → Settings → Settings) : SettingOption where
  name := name
  envName := envName
  repeats := false
  put := fun _ value s =>
    if value = "true" then .ok (set true s)
    else if value = "false" then .ok (set false s)
    else .error .unknownValue

/-- An option with a number of 64 bits. -/
def ofNumber (name envName : String) (set : Nat → Settings → Settings) : SettingOption where
  name := name
  envName := envName
  repeats := false
  put := fun _ value s =>
    match Text.naturalBelow? Text.wordLimit value.toList with
    | some n => .ok (set n s)
    | none => .error .malformedValue

/-- All options, in the order in which their variables are read. -/
def all : List SettingOption :=
  [ofLogins "host-credentials" "HOST_CREDENTIALS",
    ofNames "user-roles" "USER_ROLES" fun isFirst names s =>
      { s with staticRoles := if isFirst then names else s.staticRoles ++ names },
    ofText "user-role-prefix" "USER_ROLE_PREFIX" fun v s =>
      { s with rolePrefix := v, shard := { s.shard with rolePrefix := v } },
    ofText "manager-role-name" "MANAGER_ROLE_NAME" fun v s => { s with managerRole := v },
    ofFlag "all-databases-enabled-read" "ALL_DATABASES_ENABLED_READ" fun v s =>
      { s with flags := { s.flags with allDatabasesRead := v } },
    ofFlag "all-databases-enabled-write" "ALL_DATABASES_ENABLED_WRITE" fun v s =>
      { s with flags := { s.flags with allDatabasesWrite := v } },
    ofFlag "extended-write-enabled" "EXTENDED_WRITE_ENABLED" fun v s =>
      { s with flags := { s.flags with extendedWrite := v } },
    ofText "aws-policy-name" "AWS_POLICY_NAME" fun v s =>
      { s with shard := { s.shard with baseName := v } },
    ofText "aws-region" "AWS_REGION" fun v s => { s with shard := { s.shard with region := v } },
    ofText "aws-account-id" "AWS_ACCOUNT_ID" fun v s =>
      { s with shard := { s.shard with account := v } },
    ofText "aws-profile" "AWS_PROFILE" fun v s =>
      { s with aws := { s.aws with profile := some v } },
    ofText "aws-access-key-id" "AWS_ACCESS_KEY_ID" fun v s =>
      { s with aws := { s.aws with accessKeyId := some v } },
    ofText "aws-secret-access-key" "AWS_SECRET_ACCESS_KEY" fun v s =>
      { s with aws := { s.aws with secretAccessKey := some v } },
    ofText "iam-policy-prefix" "IAM_POLICY_PREFIX" fun v s =>
      { s with shard := { s.shard with path := v } },
    ofNumber "iam-policy-statement-limit" "IAM_POLICY_STATEMENT_LIMIT" fun n s =>
      { s with shard := { s.shard with limit := n } },
    ofNames "iam-login-roles" "IAM_LOGIN_ROLES" fun _ names s =>
      { s with shard := { s.shard with loginRoles := s.shard.loginRoles ++ names } },
    ofNumber "resync-period" "RESYNC_PERIOD" fun n s => { s with resyncPeriod := n },
    ofNumber "sync-interval" "SYNC_INTERVAL" fun n s => { s with syncInterval := n },
    ofText "admin-database" "ADMIN_DATABASE" fun v s => { s with adminDatabase := v }]

/-- The option of a name. -/
def find? (name : String) : Option SettingOption := all.find? fun o => o.name = name

end SettingOption

end PgSteward
