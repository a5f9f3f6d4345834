import PgSteward.Postgres.Identifier
import PgSteward.Proofs.CatalogCommands
import PgSteward.Proofs.NameMaps

/-!
# The steps to a database

The making of a database is a list of steps on a catalog.  A step may be impossible, and then the
steps end there; a step that is done already changes nothing (`effect_of_done`).  What a step has
done the later ones leave done (`Done.keeps`), so steps that are taken up again after any number of
them lead to the same catalog as without the interruption (`finish_after`).
-/

namespace PgSteward

namespace Catalog

variable (c : Catalog)

/-- The catalog with a role, a new one being a member of others. -/
def withRole (name : String) (roles : List String) : Catalog :=
  if name ∈ c.roles then c else c.addRole name roles

/-- The catalog with a membership, unless a server refuses it or takes the grant for one of
privileges. -/
def join (strict : Bool) (role member : String) : Catalog :=
  if role = "ON" ∨ c.GoesInCircle strict member role then c else c.addMembership member role

/-- The catalog with a database, a new one with an owner. -/
def withDatabase (name owner : String) : Catalog :=
  if name ∈ c.databases then c else { c with databases := c.databases.insert name owner }

/-- The catalog with another owner of a database. -/
def withOwner (database owner : String) : Catalog :=
  { c with databases := c.databases.insert database owner }

/-- The catalog with a schema in a database, a new one with an owner. -/
def withSchema (database name owner : String) : Catalog :=
  if (c.schemaOwner? database name).isSome then c else c.addSchema database name owner

/-- The catalog with an extension. -/
def withExtension (name : String) : Catalog :=
  { c with extensions := c.extensions.insert name }

end Catalog

/-- A step to a database. -/
inductive ProvisionStep where
  /-- Makes a role, a new one as a member of others. -/
  | role (name : String) (roles : List String)
  /-- Makes a role a member of another. -/
  | member (role member : String)
  /-- Makes a role a member of another, unless a server refuses it. -/
  | tryMember (role member : String)
  /-- Makes a database, a new one with an owner. -/
  | database (name owner : String)
  /-- Gives a database another owner. -/
  | owner (database owner : String)
  /-- Makes a schema in a database, a new one with an owner. -/
  | schema (database name owner : String)
  /-- Installs an extension. -/
  | extension (name : String)
deriving DecidableEq

/-! ## Facts about catalogs -/

namespace Catalog

variable {c : Catalog} {strict : Bool} {role member : String}

/-- A membership that is there already adds nothing. -/
theorem addMembership_eq_self (h : role ∈ c.rolesOf member) : c.addMembership member role = c := by
  have hroles : c.memberships[member]? = some (c.rolesOf member) := by
    rw [rolesOf, Std.ExtTreeMap.getD_eq_getD_getElem?] at h ⊢
    cases hm : c.memberships[member]? with
    | none =>
        rw [hm] at h
        simp at h
    | some roles => rfl
  rw [addMembership, NameSet.insert_eq_self h, NameMap.insert_eq_self hroles]

/-- Memberships of two members are added in either order. -/
theorem addMembership_comm {other group : String} (h : member ≠ other) :
    (c.addMembership member role).addMembership other group =
      (c.addMembership other group).addMembership member role := by
  have hother : (c.addMembership member role).rolesOf other = c.rolesOf other := by
    rw [rolesOf_addMembership, if_neg h]
  have hmember : (c.addMembership other group).rolesOf member = c.rolesOf member := by
    rw [rolesOf_addMembership, if_neg h.symm]
  show { c with
    memberships := (c.memberships.insert member ((c.rolesOf member).insert role)).insert other
      (((c.addMembership member role).rolesOf other).insert group) } =
    { c with
      memberships := (c.memberships.insert other ((c.rolesOf other).insert group)).insert member
        (((c.addMembership other group).rolesOf member).insert role) }
  rw [hother, hmember, NameMap.insert_insert_comm _ h]

theorem mem_rolesOf_addMembership {name r : String} :
    r ∈ (c.addMembership member role).rolesOf name ↔
      r ∈ c.rolesOf name ∨ (name = member ∧ r = role) := by
  rw [rolesOf_addMembership]
  by_cases h : member = name
  · rw [if_pos h, Std.ExtTreeSet.mem_insert, Std.LawfulEqCmp.compare_eq_iff_eq, or_comm]
    simp [h, eq_comm]
  · rw [if_neg h]
    simp [Ne.symm h]

theorem join_of_none (h : role = "ON" ∨ c.GoesInCircle strict member role) :
    c.join strict role member = c := if_pos h

theorem join_of_free (h : ¬(role = "ON" ∨ c.GoesInCircle strict member role)) :
    c.join strict role member = c.addMembership member role := if_neg h

/-- A role joins another without a change when nothing can come of it, or when it is a member
already. -/
theorem join_eq_self_iff :
    c.join strict role member = c ↔
      role = "ON" ∨ c.GoesInCircle strict member role ∨ role ∈ c.rolesOf member := by
  rw [join, ← or_assoc]
  by_cases h : role = "ON" ∨ c.GoesInCircle strict member role
  · rw [if_pos h]
    simp [h]
  · rw [if_neg h]
    constructor
    · intro hsame
      refine .inr ?_
      rw [← hsame, mem_rolesOf_addMembership]
      exact .inr ⟨rfl, rfl⟩
    · rintro (hnone | hmember)
      · exact absurd hnone h
      · exact addMembership_eq_self hmember

theorem mem_rolesOf_join {name r : String} :
    r ∈ (c.join strict role member).rolesOf name ↔
      r ∈ c.rolesOf name ∨
        (name = member ∧ r = role ∧ role ≠ "ON" ∧ ¬c.GoesInCircle strict member role) := by
  rw [join]
  by_cases h : role = "ON" ∨ c.GoesInCircle strict member role
  · rw [if_pos h]
    constructor
    · exact .inl
    · rintro (hr | ⟨-, -, hon, hcircle⟩)
      · exact hr
      · exact absurd h (not_or.mpr ⟨hon, hcircle⟩)
  · rw [if_neg h, mem_rolesOf_addMembership]
    rw [not_or] at h
    simp [h]

/-- A change that has nothing to do with memberships may come before or after one of them. -/
theorem join_comm_of {f : Catalog → Catalog}
    (h : ∀ (c : Catalog) (memberships : NameMap NameSet),
      f { c with memberships } = { f c with memberships }) :
    f (c.join strict role member) = (f c).join strict role member := by
  have hsame : (f c).memberships = c.memberships := by rw [show f c = _ from h c c.memberships]
  have hrolesOf : (f c).rolesOf = c.rolesOf := by
    funext name
    rw [rolesOf, hsame, rolesOf]
  have hcircle : (f c).GoesInCircle strict member role ↔ c.GoesInCircle strict member role := by
    unfold GoesInCircle
    rw [hrolesOf]
  by_cases hnone : role = "ON" ∨ c.GoesInCircle strict member role
  · rw [join_of_none hnone, join_of_none (hnone.imp_right hcircle.mpr)]
  · rw [join_of_free hnone, join_of_free fun hc => hnone (hc.imp_right hcircle.mp), addMembership,
      addMembership, h, hrolesOf, hsame]

/-- Two members join other roles in either order, unless the second one joins the first. -/
theorem join_comm {role' member' : String} (hne : member ≠ member') (hrole : role' ≠ member) :
    (c.join strict role member).join strict role' member' =
      (c.join strict role' member').join strict role member := by
  have hcircle : (c.join strict role member).GoesInCircle strict member' role' ↔
      c.GoesInCircle strict member' role' := by
    unfold GoesInCircle
    rw [mem_rolesOf_join]
    simp [hrole]
  have hcircle' : (c.join strict role' member').GoesInCircle strict member role ↔
      c.GoesInCircle strict member role := by
    unfold GoesInCircle
    rw [mem_rolesOf_join]
    simp [hrole.symm]
  by_cases h : role = "ON" ∨ c.GoesInCircle strict member role
  · rw [join_of_none h, join_of_none (h.imp_right hcircle'.mpr)]
  · have h' : ¬(role = "ON" ∨ (c.join strict role' member').GoesInCircle strict member role) :=
      fun hc => h (hc.imp_right hcircle'.mp)
    rw [join_of_free h']
    by_cases hother : role' = "ON" ∨ c.GoesInCircle strict member' role'
    · rw [join_of_none hother, join_of_none (hother.imp_right hcircle.mpr), join_of_free h]
    · rw [join_of_free fun hc => hother (hc.imp_right hcircle.mp), join_of_free hother,
        join_of_free h, addMembership_comm hne]

/-- A new role changes the roles and the memberships. -/
theorem addRole_eq (name : String) (roles : List String) :
    c.addRole name roles =
      { c with
        roles := c.roles.insert name
        memberships := (c.addRole name roles).memberships } := by
  have hfold : ∀ (roles : List String) (c : Catalog),
      roles.foldl (fun c role => c.addMembership name role) c =
        { c with
          memberships :=
            (roles.foldl (fun c role => c.addMembership name role) c).memberships } := by
    intro roles
    induction roles with
    | nil => exact fun c => rfl
    | cons role rest ih =>
        intro c
        rw [List.foldl_cons, ih (c.addMembership name role)]
        rfl
  exact hfold roles { c with roles := c.roles.insert name }

/-! Each change is one of a part of the catalog. -/

theorem withRole_eq (name : String) (roles : List String) :
    c.withRole name roles =
      { c with
        roles := (c.withRole name roles).roles
        memberships := (c.withRole name roles).memberships } := by
  rw [withRole]
  split
  next => rfl
  next =>
    rw [addRole_eq]

theorem join_eq : c.join strict role member =
    { c with memberships := (c.join strict role member).memberships } := by
  rw [join]
  split
  next => rfl
  next => rfl

theorem withDatabase_eq (name owner : String) :
    c.withDatabase name owner =
      { c with databases := (c.withDatabase name owner).databases } := by
  rw [withDatabase]
  split
  next => rfl
  next => rfl

theorem withSchema_eq (database name owner : String) :
    c.withSchema database name owner =
      { c with schemas := (c.withSchema database name owner).schemas } := by
  rw [withSchema]
  split
  next => rfl
  next => rfl

theorem schemaOwner?_addSchema (database name owner : String) :
    (c.addSchema database name owner).schemaOwner? database name = some owner := by
  unfold schemaOwner? addSchema
  simp

/-- A catalog has all that another has. -/
structure Grows (c c' : Catalog) : Prop where
  /-- The roles stay. -/
  roles : ∀ name ∈ c.roles, name ∈ c'.roles
  /-- The memberships stay. -/
  rolesOf : ∀ name, ∀ role ∈ c.rolesOf name, role ∈ c'.rolesOf name
  /-- The databases stay. -/
  databases : ∀ name ∈ c.databases, name ∈ c'.databases
  /-- The schemas stay. -/
  schemas : ∀ database name, (c.schemaOwner? database name).isSome →
    (c'.schemaOwner? database name).isSome
  /-- The extensions stay. -/
  extensions : ∀ name ∈ c.extensions, name ∈ c'.extensions

theorem Grows.refl (c : Catalog) : Grows c c :=
  ⟨fun _ h => h, fun _ _ h => h, fun _ h => h, fun _ _ h => h, fun _ h => h⟩

theorem grows_withRole (name : String) (roles : List String) : Grows c (c.withRole name roles) := by
  have hfold : ∀ (other : String) (roles : List String) (c : Catalog), ∀ r ∈ c.rolesOf other,
      r ∈ (roles.foldl (fun c role => c.addMembership name role) c).rolesOf other := by
    intro other roles
    induction roles with
    | nil => exact fun c r hr => hr
    | cons role rest ih => exact fun c r hr => ih _ r (mem_rolesOf_addMembership.mpr (.inl hr))
  rw [withRole]
  split
  next => exact .refl c
  next =>
    refine ⟨fun n hn => ?_, fun other r hr => hfold other roles _ r hr, ?_, ?_, ?_⟩ <;>
      rw [addRole_eq]
    · exact Std.ExtTreeSet.mem_insert.mpr (.inr hn)
    · exact fun _ h => h
    · exact fun _ _ h => h
    · exact fun _ h => h

theorem grows_join : Grows c (c.join strict role member) := by
  refine ⟨?_, fun name r hr => mem_rolesOf_join.mpr (.inl hr), ?_, ?_, ?_⟩ <;> rw [join_eq]
  · exact fun _ h => h
  · exact fun _ h => h
  · exact fun _ _ h => h
  · exact fun _ h => h

theorem grows_withDatabase (name owner : String) : Grows c (c.withDatabase name owner) := by
  rw [withDatabase]
  split
  next => exact .refl c
  next =>
    exact ⟨fun _ h => h, fun _ _ h => h, fun _ h => Std.ExtTreeMap.mem_insert.mpr (.inr h),
      fun _ _ h => h, fun _ h => h⟩

theorem grows_withOwner (database owner : String) : Grows c (c.withOwner database owner) :=
  ⟨fun _ h => h, fun _ _ h => h, fun _ h => Std.ExtTreeMap.mem_insert.mpr (.inr h),
    fun _ _ h => h, fun _ h => h⟩

theorem grows_withSchema (database name owner : String) :
    Grows c (c.withSchema database name owner) := by
  rw [withSchema]
  split
  next => exact .refl c
  next =>
    refine ⟨fun _ h => h, fun _ _ h => h, fun _ h => h, fun d n h => ?_, fun _ h => h⟩
    unfold schemaOwner? addSchema at *
    by_cases hd : database = d
    · subst hd
      cases hschemas : c.schemas[database]? with
      | none =>
          rw [hschemas] at h
          cases h
      | some schemas =>
          rw [hschemas, Option.bind_some] at h
          rw [Std.ExtTreeMap.getElem?_insert_self, Option.bind_some,
            Std.ExtTreeMap.getD_eq_getD_getElem?, hschemas, Option.getD_some,
            Std.ExtTreeMap.getElem?_insert]
          split
          next => rfl
          next => exact h
    · rwa [Std.ExtTreeMap.getElem?_insert, if_neg (by simpa using hd)]

theorem grows_withExtension (name : String) : Grows c (c.withExtension name) :=
  ⟨fun _ h => h, fun _ _ h => h, fun _ h => h, fun _ _ h => h,
    fun _ h => Std.ExtTreeSet.mem_insert.mpr (.inr h)⟩

end Catalog

namespace ProvisionStep

/-- Whether a server can do a step. -/
def Possible (strict : Bool) (c : Catalog) : ProvisionStep → Prop
  | .member r m => isName r = true ∧ (r = "ON" ∨ ¬c.GoesInCircle strict m r)
  | _ => True

instance (strict : Bool) (c : Catalog) (step : ProvisionStep) :
    Decidable (step.Possible strict c) := by
  cases step <;> unfold Possible <;> infer_instance

/-- Why a server cannot do a step: the name of the role to join may not stand in a statement, or the
membership goes in a circle. -/
inductive Stuck (strict : Bool) (c : Catalog) : ProvisionStep → SqlError → Prop
  | unsafeName {role member : String} : isName role = false →
      Stuck strict c (.member role member) (.unsafeName role)
  | circle {role member : String} : isName role = true → role ≠ "ON" →
      c.GoesInCircle strict member role →
      Stuck strict c (.member role member) (Catalog.circular member role)

theorem Stuck.not_possible {strict : Bool} {c : Catalog} {step : ProvisionStep} {e : SqlError}
    (h : step.Stuck strict c e) : ¬step.Possible strict c := by
  cases h with
  | unsafeName hbad => exact fun hpossible => Bool.false_ne_true (hbad.symm.trans hpossible.1)
  | circle _ hon hcircle => exact fun hpossible => hpossible.2.resolve_left hon hcircle

/-- The catalog after a step. -/
def effect (strict : Bool) (c : Catalog) : ProvisionStep → Catalog
  | .role n rs => c.withRole n rs
  | .member r m => c.join strict r m
  | .tryMember r m => c.join strict r m
  | .database d o => c.withDatabase d o
  | .owner d o => c.withOwner d o
  | .schema d n o => c.withSchema d n o
  | .extension n => c.withExtension n

/-- Whether a step has been done. -/
def Done (strict : Bool) (c : Catalog) : ProvisionStep → Prop
  | .role n _ => n ∈ c.roles
  | .member r m =>
      isName r = true ∧ (r = "ON" ∨ (¬c.GoesInCircle strict m r ∧ r ∈ c.rolesOf m))
  | .tryMember r m => r = "ON" ∨ c.GoesInCircle strict m r ∨ r ∈ c.rolesOf m
  | .database d _ => d ∈ c.databases
  | .owner d o => c.databases[d]? = some o
  | .schema d n _ => (c.schemaOwner? d n).isSome
  | .extension n => n ∈ c.extensions

variable {strict : Bool} {c : Catalog}

/-! ## A step that has been done -/

/-- A step that has been done is possible and changes nothing. -/
theorem effect_of_done {step : ProvisionStep} (h : step.Done strict c) :
    step.Possible strict c ∧ step.effect strict c = c := by
  cases step with
  | role n rs => exact ⟨trivial, if_pos h⟩
  | member r m =>
      obtain ⟨hname, hdone⟩ := h
      refine ⟨⟨hname, hdone.imp_right And.left⟩, ?_⟩
      exact Catalog.join_eq_self_iff.mpr (hdone.imp_right fun h => .inr h.2)
  | tryMember r m => exact ⟨trivial, Catalog.join_eq_self_iff.mpr h⟩
  | database d o => exact ⟨trivial, if_pos h⟩
  | owner d o =>
      have hsame : c.databases.insert d o = c.databases := NameMap.insert_eq_self h
      exact ⟨trivial, by rw [effect, Catalog.withOwner, hsame]⟩
  | schema d n o => exact ⟨trivial, if_pos h⟩
  | extension n =>
      have hsame : c.extensions.insert n = c.extensions := NameSet.insert_eq_self h
      exact ⟨trivial, by rw [effect, Catalog.withExtension, hsame]⟩

theorem goesInCircle_join_iff {r m : String} :
    (c.join strict r m).GoesInCircle strict m r ↔ c.GoesInCircle strict m r := by
  unfold Catalog.GoesInCircle
  by_cases hself : r = m
  · simp [hself]
  · rw [Catalog.mem_rolesOf_join]
    simp [hself]

/-- A possible step has been done afterwards. -/
theorem done_effect {step : ProvisionStep} (h : step.Possible strict c) :
    step.Done strict (step.effect strict c) := by
  cases step with
  | role n rs =>
      show n ∈ (c.withRole n rs).roles
      rw [Catalog.withRole]
      split
      next hn => exact hn
      next =>
        rw [Catalog.addRole_eq]
        exact Std.ExtTreeSet.mem_insert_self
  | member r m =>
      obtain ⟨hname, hpossible⟩ := h
      refine ⟨hname, ?_⟩
      show r = "ON" ∨ (¬(c.join strict r m).GoesInCircle strict m r ∧
        r ∈ (c.join strict r m).rolesOf m)
      rw [goesInCircle_join_iff, Catalog.mem_rolesOf_join]
      by_cases hon : r = "ON"
      · exact .inl hon
      · have hcircle := hpossible.resolve_left hon
        exact .inr ⟨hcircle, .inr ⟨rfl, rfl, hon, hcircle⟩⟩
  | tryMember r m =>
      show r = "ON" ∨ (c.join strict r m).GoesInCircle strict m r ∨
        r ∈ (c.join strict r m).rolesOf m
      rw [goesInCircle_join_iff, Catalog.mem_rolesOf_join]
      by_cases hon : r = "ON"
      · exact .inl hon
      · by_cases hcircle : c.GoesInCircle strict m r
        · exact .inr (.inl hcircle)
        · exact .inr (.inr (.inr ⟨rfl, rfl, hon, hcircle⟩))
  | database d o =>
      show d ∈ (c.withDatabase d o).databases
      rw [Catalog.withDatabase]
      split
      next hd => exact hd
      next => exact Std.ExtTreeMap.mem_insert_self
  | owner d o => exact Std.ExtTreeMap.getElem?_insert_self
  | schema d n o =>
      show ((c.withSchema d n o).schemaOwner? d n).isSome
      rw [Catalog.withSchema]
      split
      next hn => exact hn
      next =>
        rw [Catalog.schemaOwner?_addSchema]
        rfl
  | extension n => exact Std.ExtTreeSet.mem_insert_self

/-! ## Steps that leave others done -/

/-- Whether a step may come after another.  A role is made before any membership, and a database
gets one owner. -/
def MayPrecede : ProvisionStep → ProvisionStep → Prop
  | .member .., .role .. | .tryMember .., .role .. | .owner .., .owner .. => False
  | _, _ => True

/-- No step takes anything away. -/
theorem grows_effect (step : ProvisionStep) : Catalog.Grows c (step.effect strict c) := by
  cases step with
  | role n rs => exact Catalog.grows_withRole n rs
  | member r m => exact Catalog.grows_join
  | tryMember r m => exact Catalog.grows_join
  | database d o => exact Catalog.grows_withDatabase d o
  | owner d o => exact Catalog.grows_withOwner d o
  | schema d n o => exact Catalog.grows_withSchema d n o
  | extension n => exact Catalog.grows_withExtension n

/-- The owner of a database is changed only by a step that is about this. -/
theorem getElem?_databases_effect {step : ProvisionStep} (hstep : ∀ d o, step ≠ .owner d o)
    {d : String} (hd : d ∈ c.databases) :
    (step.effect strict c).databases[d]? = c.databases[d]? := by
  cases step with
  | role m rs => rw [effect, Catalog.withRole_eq]
  | member r m => rw [effect, Catalog.join_eq]
  | tryMember r m => rw [effect, Catalog.join_eq]
  | database e o =>
      show (c.withDatabase e o).databases[d]? = _
      rw [Catalog.withDatabase]
      split
      next => rfl
      next he =>
        have hne : e ≠ d := fun heq => he (by rw [heq]; exact hd)
        rw [Std.ExtTreeMap.getElem?_insert, if_neg (by simpa using hne)]
  | owner e o => exact absurd rfl (hstep e o)
  | schema e m o => rw [effect, Catalog.withSchema_eq]
  | extension m => rfl

/-- A membership does not come to go in a circle when it is there. -/
theorem not_goesInCircle_effect {step : ProvisionStep} {r m : String}
    (hstep : ∀ n rs, step ≠ .role n rs) (hmember : r ∈ c.rolesOf m)
    (h : ¬c.GoesInCircle strict m r) : ¬(step.effect strict c).GoesInCircle strict m r := by
  have hjoin : ∀ r' m', ¬(c.join strict r' m').GoesInCircle strict m r := by
    rintro r' m' (hself | ⟨hstrict, hcircle⟩)
    · exact h (.inl hself)
    · rcases Catalog.mem_rolesOf_join.mp hcircle with hold | ⟨rfl, rfl, -, hfree⟩
      · exact h (.inr ⟨hstrict, hold⟩)
      · exact hfree (.inr ⟨hstrict, hmember⟩)
  cases step with
  | role n rs => exact absurd rfl (hstep n rs)
  | member r' m' => exact hjoin r' m'
  | tryMember r' m' => exact hjoin r' m'
  | database d o =>
      rw [effect, Catalog.withDatabase_eq]
      exact h
  | owner d o => exact h
  | schema d n o =>
      rw [effect, Catalog.withSchema_eq]
      exact h
  | extension n => exact h

/-- What a step has done a later one leaves done. -/
theorem Done.keeps {a b : ProvisionStep} (h : a.Done strict c) (hab : a.MayPrecede b) :
    a.Done strict (b.effect strict c) := by
  have hgrows : Catalog.Grows c (b.effect strict c) := grows_effect b
  cases a with
  | role n rs => exact hgrows.roles n h
  | member r m =>
      have hb : ∀ n rs, b ≠ .role n rs := by
        rintro n rs rfl
        exact hab
      refine ⟨h.1, h.2.imp_right fun hdone => ?_⟩
      exact ⟨not_goesInCircle_effect hb hdone.2 hdone.1, hgrows.rolesOf m r hdone.2⟩
  | tryMember r m =>
      rcases h with hon | (hself | ⟨hstrict, hcircle⟩) | hmember
      · exact .inl hon
      · exact .inr (.inl (.inl hself))
      · exact .inr (.inl (.inr ⟨hstrict, hgrows.rolesOf r m hcircle⟩))
      · exact .inr (.inr (hgrows.rolesOf m r hmember))
  | database d o => exact hgrows.databases d h
  | owner d o =>
      have hb : ∀ d' o', b ≠ .owner d' o' := by
        rintro d' o' rfl
        exact hab
      have hd : d ∈ c.databases := by
        rw [Std.ExtTreeMap.mem_iff_isSome_getElem?, show c.databases[d]? = some o from h]
        rfl
      exact (getElem?_databases_effect hb hd).trans h
  | schema d n o => exact hgrows.schemas d n h
  | extension n => exact hgrows.extensions n h

/-! ## Steps one after the other -/

/-- The catalog after steps. -/
def after (strict : Bool) (c : Catalog) (steps : List ProvisionStep) : Catalog :=
  steps.foldl (effect strict) c

/-- Whether all steps are possible, each after the ones before it. -/
def Passes (strict : Bool) (c : Catalog) : List ProvisionStep → Prop
  | [] => True
  | step :: rest => step.Possible strict c ∧ Passes strict (step.effect strict c) rest

/-- The catalog after steps up to the first that is impossible. -/
def finish (strict : Bool) (c : Catalog) : List ProvisionStep → Catalog
  | [] => c
  | step :: rest => if step.Possible strict c then finish strict (step.effect strict c) rest else c

variable {steps others : List ProvisionStep}

theorem after_append :
    after strict c (steps ++ others) = after strict (after strict c steps) others :=
  List.foldl_append ..

theorem passes_append_iff :
    Passes strict c (steps ++ others) ↔
      Passes strict c steps ∧ Passes strict (after strict c steps) others := by
  induction steps generalizing c with
  | nil => simp [Passes, after]
  | cons step rest ih =>
      rw [List.cons_append, Passes, Passes, ih, and_assoc]
      rfl

theorem finish_append (h : Passes strict c steps) :
    finish strict c (steps ++ others) = finish strict (after strict c steps) others := by
  induction steps generalizing c with
  | nil => rfl
  | cons step rest ih =>
      rw [List.cons_append, finish, if_pos h.1, ih h.2]
      rfl

theorem finish_of_passes (h : Passes strict c steps) :
    finish strict c steps = after strict c steps := by
  have hfinish : finish strict c (steps ++ []) = finish strict (after strict c steps) [] :=
    finish_append h
  rwa [List.append_nil] at hfinish

/-- Steps that have been done are possible and change nothing. -/
theorem after_of_done (h : ∀ step ∈ steps, step.Done strict c) :
    Passes strict c steps ∧ after strict c steps = c := by
  induction steps with
  | nil => exact ⟨trivial, rfl⟩
  | cons step rest ih =>
      obtain ⟨hpossible, hsame⟩ := effect_of_done (h step (List.mem_cons_self ..))
      obtain ⟨hpasses, hafter⟩ := ih fun other hother => h other (List.mem_cons_of_mem _ hother)
      refine ⟨⟨hpossible, by rwa [hsame]⟩, ?_⟩
      show after strict (step.effect strict c) rest = c
      rw [hsame, hafter]

theorem Done.keeps_all {step : ProvisionStep} (h : step.Done strict c)
    (hsteps : ∀ other ∈ steps, step.MayPrecede other) :
    step.Done strict (after strict c steps) := by
  induction steps generalizing c with
  | nil => exact h
  | cons other rest ih =>
      exact ih (h.keeps (hsteps other (List.mem_cons_self ..)))
        fun b hb => hsteps b (List.mem_cons_of_mem _ hb)

/-- Possible steps in a good order have all been done afterwards. -/
theorem done_after (horder : steps.Pairwise MayPrecede) (h : Passes strict c steps) :
    ∀ step ∈ steps, step.Done strict (after strict c steps) := by
  induction steps generalizing c with
  | nil => exact fun step hstep => by cases hstep
  | cons step rest ih =>
      obtain ⟨hstep, hrest⟩ := List.pairwise_cons.mp horder
      intro other hother
      rcases List.mem_cons.mp hother with rfl | hother
      · exact (done_effect h.1).keeps_all hstep
      · exact ih hrest h.2 other hother

/-- Steps that are taken up again come to what they would have come to without a break. -/
theorem finish_after (horder : steps.Pairwise MayPrecede) (h : Passes strict c steps) :
    finish strict (after strict c steps) (steps ++ others) = finish strict c (steps ++ others) ∧
      (Passes strict (after strict c steps) (steps ++ others) ↔
        Passes strict c (steps ++ others)) := by
  obtain ⟨hpasses, hsame⟩ := after_of_done (done_after horder h)
  rw [finish_append hpasses, finish_append h, passes_append_iff, passes_append_iff, hsame]
  simp [h, hpasses]

/-! ## The owner of a database -/

/-- Whether a step is about roles only. -/
def IsOfRoles : ProvisionStep → Prop
  | .role .. | .member .. | .tryMember .. => True
  | _ => False

/-- Steps about roles and the step that makes a database keep the owner that the database has or is
given at first. -/
theorem getD_databases_after {d o : String}
    (h : ∀ step ∈ steps, step.IsOfRoles ∨ step = .database d o) :
    (after strict c steps).databases.getD d o = c.databases.getD d o := by
  induction steps generalizing c with
  | nil => rfl
  | cons step rest ih =>
      refine (ih fun other hother => h other (List.mem_cons_of_mem _ hother)).trans ?_
      rcases h step (List.mem_cons_self ..) with hrole | rfl
      · cases step with
        | role n rs => rw [effect, Catalog.withRole_eq]
        | member r m => rw [effect, Catalog.join_eq]
        | tryMember r m => rw [effect, Catalog.join_eq]
        | database e o => exact hrole.elim
        | owner e o => exact hrole.elim
        | schema e n o => exact hrole.elim
        | extension n => exact hrole.elim
      · show (c.withDatabase d o).databases.getD d o = _
        rw [Catalog.withDatabase]
        split
        next => rfl
        next hd => rw [Std.ExtTreeMap.getD_insert_self, Std.ExtTreeMap.getD_eq_fallback hd]

/-! ## The schemas and the extensions -/

/-- Whether a step leaves the schemas and the extensions alone. -/
def SparesSchemas : ProvisionStep → Prop
  | .schema .. | .extension .. => False
  | _ => True

theorem IsOfRoles.sparesSchemas {step : ProvisionStep} (h : step.IsOfRoles) :
    step.SparesSchemas := by
  cases step <;> trivial

/-- The schemas and the extensions stay when every step leaves them alone. -/
theorem schemas_after (h : ∀ step ∈ steps, step.SparesSchemas) :
    (after strict c steps).schemas = c.schemas ∧
      (after strict c steps).extensions = c.extensions := by
  induction steps generalizing c with
  | nil => exact ⟨rfl, rfl⟩
  | cons step rest ih =>
      obtain ⟨hschemas, hextensions⟩ := ih (c := step.effect strict c) fun other hother =>
        h other (List.mem_cons_of_mem _ hother)
      have hstep : (step.effect strict c).schemas = c.schemas ∧
          (step.effect strict c).extensions = c.extensions := by
        have hspares := h step (List.mem_cons_self ..)
        cases step with
        | role n rs =>
            rw [effect, Catalog.withRole_eq]
            exact ⟨rfl, rfl⟩
        | member r m =>
            rw [effect, Catalog.join_eq]
            exact ⟨rfl, rfl⟩
        | tryMember r m =>
            rw [effect, Catalog.join_eq]
            exact ⟨rfl, rfl⟩
        | database d o =>
            rw [effect, Catalog.withDatabase_eq]
            exact ⟨rfl, rfl⟩
        | owner d o => exact ⟨rfl, rfl⟩
        | schema d n o => exact hspares.elim
        | extension n => exact hspares.elim
      exact ⟨hschemas.trans hstep.1, hextensions.trans hstep.2⟩

end ProvisionStep

end PgSteward
