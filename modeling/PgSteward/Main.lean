import PgSteward.Definition.Resources

/-!
# The program

Prints the definitions of the operator's resources, to be handed to a Kubernetes API.
-/

/-- Prints the definitions of all kinds of resources. -/
def main : IO Unit := IO.print PgSteward.definitionsText
