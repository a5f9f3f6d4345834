import PgSteward.Postgres.Catalog

/-!
# Commands on a catalog

What the commands do that a server may refuse: they give the error of an object that is there
already, or of a membership that goes in a circle, and leave the catalog as it is, or else they
change it as they should.
-/

namespace PgSteward

namespace Catalog

variable (c : Catalog)

theorem rolesOf_addMembership (member role other : String) :
    (c.addMembership member role).rolesOf other =
      if member = other then (c.rolesOf other).insert role else c.rolesOf other := by
  simp only [addMembership, rolesOf, Std.ExtTreeMap.getD_insert, Std.LawfulEqCmp.compare_eq_iff_eq]
  by_cases h : member = other
  · rw [if_pos h, if_pos h, h]
  · rw [if_neg h, if_neg h]

theorem rolesOf_dropMembership (member role other : String) :
    (c.dropMembership member role).rolesOf other =
      if member = other then (c.rolesOf other).erase role else c.rolesOf other := by
  cases hroles : c.memberships[member]? with
  | none =>
      have hsame : c.dropMembership member role = c := by rw [dropMembership, hroles]
      rw [hsame]
      by_cases h : member = other
      · have hempty : c.rolesOf other = ∅ := by
          rw [rolesOf, ← h, Std.ExtTreeMap.getD_eq_getD_getElem?, hroles]
          rfl
        simp [h, hempty]
      · rw [if_neg h]
  | some roles =>
      have hdrop : c.dropMembership member role =
          { c with memberships := c.memberships.insert member (roles.erase role) } := by
        rw [dropMembership, hroles]
      rw [hdrop]
      simp only [rolesOf, Std.ExtTreeMap.getD_insert, Std.LawfulEqCmp.compare_eq_iff_eq]
      by_cases h : member = other
      · rw [if_pos h, if_pos h, ← h, Std.ExtTreeMap.getD_eq_getD_getElem?, hroles]
        rfl
      · rw [if_neg h, if_neg h]

/-- The end of a membership leaves all but the memberships as it is. -/
theorem dropMembership_eq (member role : String) : c.dropMembership member role =
    { c with memberships := (c.dropMembership member role).memberships } := by
  unfold dropMembership
  split
  next => rfl
  next => rfl

/-! ## Commands -/

/-- The catalog with a role more. -/
def addRole (name : String) (roles : List String) : Catalog :=
  roles.foldl (fun c role => c.addMembership name role) { c with roles := c.roles.insert name }

theorem run_createRole (user database : String) (strict : Bool) (name : String)
    (roles : List String) :
    run user database strict (.createRole name roles) c =
      if name ∈ c.roles then .error (alreadyThere "42710" "role" name) c
      else .ok () (c.addRole name roles) := by
  rw [run]
  show (if c.roles.contains name = true then _ else _ : Program Catalog SqlError Unit) c = _
  by_cases h : name ∈ c.roles
  · rw [if_pos (by simpa using h), if_pos h]
    rfl
  · rw [if_neg (by simpa using h), if_neg h]
    rfl

theorem run_createDatabase (user database : String) (strict : Bool) (name : String) :
    run user database strict (.createDatabase name) c =
      if name ∈ c.databases then .error (alreadyThere "42P04" "database" name) c
      else .ok () { c with databases := c.databases.insert name user } := by
  rw [run]
  show (if c.databases.contains name = true then _ else _ : Program Catalog SqlError Unit) c = _
  by_cases h : name ∈ c.databases
  · rw [if_pos (by simpa using h), if_pos h]
    rfl
  · rw [if_neg (by simpa using h), if_neg h]
    rfl

theorem run_createSchema (user database : String) (strict : Bool) (name : String) :
    run user database strict (.createSchema name) c =
      if (c.schemaOwner? database name).isSome then .error (alreadyThere "42P06" "schema" name) c
      else .ok () (c.addSchema database name user) := by
  rw [run]
  show (if (c.schemaOwner? database name).isSome = true then _ else _ :
    Program Catalog SqlError Unit) c = _
  split
  next => rfl
  next => rfl

/-- Whether a server refuses a membership since it goes in a circle. -/
def GoesInCircle (strict : Bool) (member role : String) : Prop :=
  role = member ∨ (strict = true ∧ member ∈ c.rolesOf role)

instance (strict : Bool) (member role : String) : Decidable (c.GoesInCircle strict member role) :=
  inferInstanceAs (Decidable (_ ∨ _))

/-- Of the roles that are granted the first is refused, and ends the grant, or it is given. -/
theorem grant_cons (strict : Bool) (member role : String) (rest : List String) :
    grant strict member (role :: rest) c =
      if c.GoesInCircle strict member role then .error (circular member role) c
      else grant strict member rest (c.addMembership member role) := by
  by_cases hself : role = member
  · rw [if_pos (.inl hself), grant]
    show (if role = member then _ else _ : Program Catalog SqlError Unit) c = _
    rw [if_pos hself]
    rfl
  · rw [grant]
    show (if role = member then _ else _ : Program Catalog SqlError Unit) c = _
    rw [if_neg hself]
    show (if (strict && (c.rolesOf role).contains member) = true then _ else _ :
      Program Catalog SqlError Unit) c = _
    by_cases hcircle : strict = true ∧ member ∈ c.rolesOf role
    · rw [if_pos (by simpa using hcircle), if_pos (.inr hcircle)]
      rfl
    · rw [if_neg (by simpa using hcircle),
        if_neg (show ¬c.GoesInCircle strict member role from not_or.mpr ⟨hself, hcircle⟩)]
      rfl

/-- A role that is granted alone is refused or given. -/
theorem grant_one (strict : Bool) (member role : String) :
    grant strict member [role] c =
      if c.GoesInCircle strict member role then .error (circular member role) c
      else .ok () (c.addMembership member role) := by
  rw [grant_cons]
  rfl

/-! ## Roles that are there -/

theorem roles_addRole (name : String) (roles : List String) :
    (c.addRole name roles).roles = c.roles.insert name := by
  have hfold : ∀ (c : Catalog), (roles.foldl (fun c role => c.addMembership name role) c).roles =
      c.roles := by
    induction roles with
    | nil => exact fun _ => rfl
    | cons role rest ih => exact fun c => ih (c.addMembership name role)
  exact hfold _

/-- A grant creates no role. -/
theorem roles_outcome_grant (strict : Bool) (member : String) (roles : List String) :
    ((grant strict member roles).outcome c).2.roles = c.roles := by
  induction roles generalizing c with
  | nil => rfl
  | cons role rest ih =>
      rw [Program.outcome, grant_cons]
      by_cases hcircle : c.GoesInCircle strict member role
      · rw [if_pos hcircle]
      · rw [if_neg hcircle]
        exact ih (c.addMembership member role)

/-- No command takes a role away. -/
theorem mem_roles_run {name : String} (h : name ∈ c.roles) (user database : String) (strict : Bool)
    (command : Command) : name ∈ ((run user database strict command).outcome c).2.roles := by
  cases command with
  | createRole new roles =>
      rw [Program.outcome, run_createRole]
      by_cases hthere : new ∈ c.roles
      · rw [if_pos hthere]
        exact h
      · rw [if_neg hthere]
        dsimp only
        rw [roles_addRole, Std.ExtTreeSet.mem_insert]
        exact .inr h
  | createDatabase new =>
      rw [Program.outcome, run_createDatabase]
      by_cases hthere : new ∈ c.databases
      · rw [if_pos hthere]
        exact h
      · rw [if_neg hthere]
        exact h
  | createSchema new =>
      rw [Program.outcome, run_createSchema]
      by_cases hthere : (c.schemaOwner? database new).isSome
      · rw [if_pos hthere]
        exact h
      · rw [if_neg hthere]
        exact h
  | grantRoles roles member =>
      show name ∈ ((grant strict member roles).outcome c).2.roles
      rwa [roles_outcome_grant]
  | revokeRole role member =>
      show name ∈ (c.dropMembership member role).roles
      rw [dropMembership_eq]
      exact h
  | alterDatabaseOwner database owner => exact h
  | createExtension extension => exact h
  | malformedGrant statement => exact h
  | other => exact h

end Catalog

end PgSteward
