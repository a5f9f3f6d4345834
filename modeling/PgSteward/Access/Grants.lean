import PgSteward.Access.Convergence
import PgSteward.Access.Plan

/-!
# Grants of a user

`Granter.sync` plans the intents of a user and makes the roles of the login role follow the plan.
Intents that come to nothing are reported after the others have been seen to.
-/

namespace PgSteward

/-- Gives users their access over surroundings `σ`. -/
structure Granter (σ : Type) where
  /-- Plans the intents. -/
  planner : Planner σ
  /-- Makes the roles follow a plan. -/
  converger : Converger σ
  /-- The start of the names of login roles. -/
  rolePrefix : String

namespace Granter

variable {σ : Type} (g : Granter σ)

/-- The login role of a sanitized name. -/
def loginRole (sanitized : String) : String := g.rolePrefix ++ sanitized

/-- Gives a user the access of its intents at an instant. -/
def sync (now : Instant) (space sanitized : String) (reads : List AccessIntent)
    (writes : List WriteIntent) : Program σ Error Unit := do
  let plan ← g.planner.plan now space reads writes
  match ← Program.attempt (g.converger.converge (g.loginRole sanitized) plan.access) with
  | .ok () => Program.failIf (Error.combine plan.errors)
  | .error e => Program.failIf (Error.combine (plan.errors ++ [e]))

end Granter

end PgSteward
