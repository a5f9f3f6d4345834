import PgSteward.Postgres.Error
import PgSteward.Text.SingleQuoted

/-!
# Identifiers and literals

Names and passwords get into a statement in two ways only.  An identifier is a name of ASCII
letters, digits and underscores that does not start with a digit; it stands as it is.  A literal
stands between single quotes, with every quote inside it written twice.
-/

namespace PgSteward

/-- Whether a character may stand in an identifier. -/
def isNameChar (c : Char) : Bool := c.isAlphanum || c = '_'

/-- Whether a text is an identifier. -/
def isName (s : String) : Bool :=
  match s.toList with
  | [] => false
  | c :: cs => (c.isAlpha || c = '_') && cs.all isNameChar

/-- A name that may stand in a statement. -/
structure Identifier where
  name : String
  /-- The name is an identifier. -/
  isName : isName name = true
deriving DecidableEq

namespace Identifier

/-- The identifier that a name is. -/
def of (name : String) : Except SqlError Identifier :=
  if h : PgSteward.isName name = true then .ok ⟨name, h⟩ else .error (.unsafeName name)

/-- The identifiers that some names are, the first fault first. -/
def ofAll : List String → Except SqlError (List Identifier)
  | [] => .ok []
  | name :: rest => do
      let i ← of name
      let is ← ofAll rest
      return i :: is

theorem of_eq_ok_iff {name : String} {i : Identifier} : of name = .ok i ↔ i.name = name := by
  unfold of
  constructor
  · intro h
    split at h
    · cases h
      rfl
    · cases h
  · rintro rfl
    simp [i.isName]

theorem of_eq_error_iff {name : String} {e : SqlError} :
    of name = .error e ↔ PgSteward.isName name = false ∧ e = .unsafeName name := by
  unfold of
  by_cases h : PgSteward.isName name = true
  · simp [h]
  · simp [h, eq_comm]

end Identifier

/-- A text as a literal of a statement. -/
def literal (s : String) : String := Text.singleQuoted s

end PgSteward
