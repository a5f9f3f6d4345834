import PgSteward.Json.Printer
import PgSteward.Json.Reader
import PgSteward.Policy.Document
import PgSteward.Policy.Error
import PgSteward.Text.Percent
import PgSteward.Text.Utf8

/-!
# The text of a policy document

The service keeps a document as compact JSON and returns it with some of its bytes percent encoded.
`PolicyDocument.ofText` reads such a text from front to back, and the first fault it meets decides:
a member that comes twice is refused at its second name, before its value is looked at, and a member
that does not come is missed at the end of its object.  Unknown members are passed over.
-/

namespace PgSteward

open Json (ReadFault Scanner)

/-! ## Statements -/

/-- The members of a statement that have been read so far. -/
structure StatementMembers where
  /-- Whether the statement allows or denies. -/
  effect : Option String := none
  action : Option (List String) := none
  resource : Option (List String) := none
  /-- The patterns that keys of the request must match. -/
  patterns : Option (NameMap String) := none

/-- The members of a document that have been read so far. -/
structure DocumentMembers where
  /-- The version of the language. -/
  version : Option String := none
  statements : Option (List PolicyStatement) := none

/-- A member that must come. -/
def present {α : Type} : Option α → Except ReadFault α
  | some a => .ok a
  | none => .error .wrongShape

/-- Refuses a member that has come before. -/
def once (seen : Bool) : Except ReadFault Unit := if seen then .error .wrongShape else .ok ()

/-- Takes a value and puts it where it belongs. -/
def into {α σ : Type} (value : Scanner α) (put : α → σ) : Scanner σ := fun cs => do
  let (a, cs) ← value cs
  return (put a, cs)

/-- Passes over a value. -/
def passOver {σ : Type} (seen : σ) : Scanner σ := into Json.skipValue fun () => seen

/-- Takes a list of texts. -/
def textsValue : Scanner (List String) := Json.listValue Json.textValue

/-- Takes a map of texts.  Of two members of one name the last counts. -/
def textMapValue : Scanner (NameMap String) :=
  Json.opened '\x7b' (Json.objectBody Json.anyName
    (fun name seen => into Json.textValue fun value => seen.insert name value) ∅)

/-- Takes the patterns of a statement. -/
def patternsValue : Scanner (NameMap String) :=
  Json.structureValue
    (fun cs => do
      let (seen, cs) ← Json.objectBody
        (fun name (seen : Option (NameMap String)) => once (name = "StringLike" && seen.isSome))
        (fun name seen =>
          if name = "StringLike" then into textMapValue some else passOver seen) none cs
      return (← present seen, cs))
    (fun cs => do
      let (patterns, cs) ← Json.nextPlace true textMapValue cs
      return (patterns, ← Json.endOfPlaces cs))

namespace StatementMembers

/-- Refuses a member that has come before. -/
def check (name : String) (seen : StatementMembers) : Except ReadFault Unit :=
  once ((name = "Effect" && seen.effect.isSome) || (name = "Action" && seen.action.isSome) ||
    (name = "Resource" && seen.resource.isSome) || (name = "Condition" && seen.patterns.isSome))

/-- Takes the value of a member. -/
def step (name : String) (seen : StatementMembers) : Scanner StatementMembers :=
  if name = "Effect" then into Json.textValue fun v => { seen with effect := some v }
  else if name = "Action" then into textsValue fun v => { seen with action := some v }
  else if name = "Resource" then into textsValue fun v => { seen with resource := some v }
  else if name = "Condition" then into patternsValue fun v => { seen with patterns := some v }
  else passOver seen

/-- The statement of the members. -/
def complete (m : StatementMembers) : Except ReadFault PolicyStatement := do
  return {
    effect := ← present m.effect
    action := ← present m.action
    resource := ← present m.resource
    patterns := ← present m.patterns }

end StatementMembers

/-- Takes a statement. -/
def statementValue : Scanner PolicyStatement :=
  Json.structureValue
    (fun cs => do
      let (seen, cs) ← Json.objectBody StatementMembers.check StatementMembers.step {} cs
      return (← seen.complete, cs))
    (fun cs => do
      let (effect, cs) ← Json.nextPlace true Json.textValue cs
      let (action, cs) ← Json.nextPlace false textsValue cs
      let (resource, cs) ← Json.nextPlace false textsValue cs
      let (patterns, cs) ← Json.nextPlace false patternsValue cs
      return ({ effect, action, resource, patterns }, ← Json.endOfPlaces cs))

/-! ## Documents -/

namespace DocumentMembers

/-- Refuses a member that has come before. -/
def check (name : String) (seen : DocumentMembers) : Except ReadFault Unit :=
  once ((name = "Version" && seen.version.isSome) ||
    (name = "Statement" && seen.statements.isSome))

/-- Takes the value of a member. -/
def step (name : String) (seen : DocumentMembers) : Scanner DocumentMembers :=
  if name = "Version" then into Json.textValue fun v => { seen with version := some v }
  else if name = "Statement" then
    into (Json.listValue statementValue) fun v => { seen with statements := some v }
  else passOver seen

/-- The document of the members. -/
def complete (m : DocumentMembers) : Except ReadFault PolicyDocument := do
  return { version := ← present m.version, statements := ← present m.statements }

end DocumentMembers

/-- Takes a document. -/
def documentValue : Scanner PolicyDocument :=
  Json.structureValue
    (fun cs => do
      let (seen, cs) ← Json.objectBody DocumentMembers.check DocumentMembers.step {} cs
      return (← seen.complete, cs))
    (fun cs => do
      let (version, cs) ← Json.nextPlace true Json.textValue cs
      let (statements, cs) ← Json.nextPlace false (Json.listValue statementValue) cs
      return ({ version, statements }, ← Json.endOfPlaces cs))

namespace PolicyDocument

/-- The document that a JSON text is. -/
def read (cs : List Char) : Except ReadFault PolicyDocument := do
  let (document, rest) ← documentValue cs
  Json.endOfText rest
  return document

/-- The JSON text of a document. -/
def text (d : PolicyDocument) : String := d.encode.compact

/-- The document of a policy from its percent encoded text. -/
def ofText (policy text : String) : Except IamError PolicyDocument :=
  match Text.ofUtf8 (Text.percentDecode (Text.toUtf8 text.toList)) with
  | .error fault => .error (.encoding policy fault.message)
  | .ok cs => (read cs).mapError (.document policy)

end PolicyDocument

end PgSteward
