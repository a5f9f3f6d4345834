import PgSteward.CommandLine.Options

/-!
# Reading the settings

The settings come from the words of the command line, and from the environment where the words say
nothing.  An option stands before its value, or is joined to it by `=`.  The value of an option
that stands before it is looked at only when the next option or the end has been reached, so a word
that does not belong there is reported first.

No word that starts with a dash is a value, a single dash apart.
-/

namespace PgSteward

/-- A word of the command line. -/
inductive CommandWord where
  | endOfOptions
  /-- An option by its name, with the value that is joined to it. -/
  | option (name : String) (value : Option String)
  /-- An option by its letter. -/
  | letter (c : Char)
  /-- Any other word. -/
  | plain (text : String)
deriving DecidableEq, Repr

namespace CommandWord

/-- The option that a word without its dashes is. -/
def ofName (cs : List Char) : CommandWord :=
  match Text.cutAt '=' cs with
  | some (name, value) => .option (String.ofList name) (some (String.ofList value))
  | none => .option (String.ofList cs) none

/-- The word that a text is. -/
def of (s : String) : CommandWord :=
  match s.toList with
  | ['-', '-'] => .endOfOptions
  | '-' :: '-' :: cs => ofName cs
  | '-' :: c :: _ => .letter c
  | _ => .plain s

end CommandWord

/-- How far the settings have been read. -/
structure CommandProgress where
  /-- The settings so far. -/
  settings : Settings := {}
  /-- The names of the options that have been given. -/
  given : List String := []
  /-- The last option, with its value if that has come, as long as it has not been looked at. -/
  pending : Option (SettingOption × Option String) := none

namespace CommandProgress

/-- Takes the value of an option. -/
def take (p : CommandProgress) (o : SettingOption) (value : String) :
    Except OptionFault CommandProgress :=
  let isFirst := !p.given.contains o.name
  if !isFirst && !o.repeats then .error .repeated
  else do
    let settings ← o.put isFirst value p.settings
    return { settings, given := o.name :: p.given }

/-- Looks at the value of the last option. -/
def settle (p : CommandProgress) : Except OptionFault CommandProgress :=
  match p.pending with
  | none => .ok p
  | some (_, none) => .error .missingValue
  | some (o, some value) => p.take o value

/-- Asks for help, once the last option is settled. -/
def help (p : CommandProgress) : Except OptionFault CommandProgress := do
  let _ ← p.settle
  throw .helpWanted

/-- Reads an option. -/
def readOption (p : CommandProgress) (o : SettingOption) (value : Option String) :
    Except OptionFault CommandProgress := do
  let p ← p.settle
  match value with
  | some value => p.take o value
  | none => return { p with pending := some (o, none) }

/-- Reads a word before the end of the options. -/
def readWord (p : CommandProgress) : CommandWord → Except OptionFault CommandProgress
  | .option name value =>
      if name = "help" then if value.isSome then .error .needlessValue else p.help
      else
        match SettingOption.find? name with
        | some o => p.readOption o value
        | none => .error .unknownWord
  | .letter c => if c = 'h' then p.help else .error .unknownWord
  | .plain text =>
      match p.pending with
      | some (o, none) => .ok { p with pending := some (o, some text) }
      | _ => .error .unknownWord
  | .endOfOptions => .ok p

/-- Reads the words of a command line. -/
def readWords (p : CommandProgress) : List String → Except OptionFault CommandProgress
  | [] => p.settle
  | word :: rest =>
      match CommandWord.of word with
      | .endOfOptions => if rest.isEmpty then p.settle else .error .unknownWord
      | w => do
          let p ← p.readWord w
          p.readWords rest

/-- Reads the variables of those options that have not been given. -/
def readVariables (p : CommandProgress) (environment : NameMap String) :
    List SettingOption → Except OptionFault CommandProgress
  | [] => .ok p
  | o :: rest =>
      if p.given.contains o.name then p.readVariables environment rest
      else
        match environment[o.envName]? with
        | none => p.readVariables environment rest
        | some value => do
            let p ← p.take o value
            p.readVariables environment rest

end CommandProgress

/-- The settings that a command line and the variables of its environment give. -/
def Settings.read (words : List String) (environment : NameMap String) :
    Except OptionFault Settings := do
  let p ← ({} : CommandProgress).readWords words
  let p ← p.readVariables environment SettingOption.all
  return p.settings

end PgSteward
