import PgSteward.Reference.Basic
import PgSteward.Program

/-!
# Resolving references

A resolver finds the text of a reference in a namespace.  An inline text needs no look-up; for the
others a resolver has a way to read a key of an object.
-/

namespace PgSteward

/-- Finds the texts of references over surroundings `σ`. -/
structure Resolver (σ : Type) where
  /-- Reads a key of an object of a namespace. -/
  read : HolderKind → (space : String) → KeyOf → Program σ LookupError String

namespace Resolver

variable {σ : Type}

/-- The text of a reference. -/
def resolve (r : Resolver σ) (space : String) (reference : Reference) :
    Program σ LookupError String := do
  match ← Program.ofExcept reference.lookup with
  | .inline value => return value
  | .held kind key => r.read kind space key

end Resolver

end PgSteward
