import PgSteward.Proofs.PasswordReading
import PgSteward.Proofs.ProvisionRepair

/-!
# What the steps to a database change

Each step adds certain entries to a catalog, and nothing else gets into it: a role, a membership or
an extension that is there after some steps was there before or is added by one of them
(`has_of_effect`, `has_of_after`).  A database gets another owner only from a step about it
(`getElem?_databases_after`), and a schema is new only where it is made (`schemaOwner?_after`).

For the steps to a database as a whole this leaves a short list of what may be new (`MayAdd`).
-/

namespace PgSteward

/-- An entry of a catalog that is there or is not. -/
inductive CatalogEntry where
  | role (name : String)
  /-- That a role is a member of another. -/
  | membership (role member : String)
  | extension (name : String)

namespace Catalog

variable {c c' : Catalog} {strict : Bool}

/-- Whether a catalog has an entry. -/
def Has (c : Catalog) : CatalogEntry → Prop
  | .role name => name ∈ c.roles
  | .membership role member => role ∈ c.rolesOf member
  | .extension name => name ∈ c.extensions

theorem Grows.has (h : Grows c c') {entry : CatalogEntry} (hentry : c.Has entry) :
    c'.Has entry := by
  cases entry with
  | role name => exact h.roles name hentry
  | membership role member => exact h.rolesOf member role hentry
  | extension name => exact h.extensions name hentry

theorem Grows.trans {c'' : Catalog} (h : Grows c c') (h' : Grows c' c'') : Grows c c'' where
  roles name hname := h'.roles name (h.roles name hname)
  rolesOf name role hrole := h'.rolesOf name role (h.rolesOf name role hrole)
  databases name hname := h'.databases name (h.databases name hname)
  schemas database name hname := h'.schemas database name (h.schemas database name hname)
  extensions name hname := h'.extensions name (h.extensions name hname)

/-- A new role is a member of the roles that it is made a member of. -/
theorem mem_rolesOf_addRole {name other r : String} {roles : List String} :
    r ∈ (c.addRole name roles).rolesOf other ↔
      r ∈ c.rolesOf other ∨ (other = name ∧ r ∈ roles) := by
  have hfold : ∀ (roles : List String) (c : Catalog),
      r ∈ (roles.foldl (fun c role => c.addMembership name role) c).rolesOf other ↔
        r ∈ c.rolesOf other ∨ (other = name ∧ r ∈ roles) := by
    intro roles
    induction roles with
    | nil => simp
    | cons role rest ih =>
        intro c
        rw [List.foldl_cons, ih, mem_rolesOf_addMembership, List.mem_cons, and_or_left, or_assoc]
  exact hfold roles _

theorem schemaOwner?_withSchema (database name owner d n : String) :
    (c.withSchema database name owner).schemaOwner? d n =
      if d = database ∧ n = name then some ((c.schemaOwner? database name).getD owner)
      else c.schemaOwner? d n := by
  rw [withSchema]
  by_cases hthere : (c.schemaOwner? database name).isSome
  · rw [if_pos hthere]
    split
    next h => rw [h.1, h.2, ← Option.some_get hthere, Option.getD_some]
    next => rfl
  · have hnone : c.schemaOwner? database name = none := by simpa using hthere
    rw [if_neg hthere, hnone, Option.getD_none]
    unfold addSchema
    unfold schemaOwner? at hnone ⊢
    by_cases hd : d = database
    · subst hd
      rw [Std.ExtTreeMap.getElem?_insert_self, Option.bind_some, Std.ExtTreeMap.getElem?_insert,
        Std.ExtTreeMap.getD_eq_getD_getElem?]
      by_cases hn : n = name
      · simp [hn]
      · cases c.schemas[d]? <;> simp [hn, Ne.symm hn]
    · rw [NameMap.getElem?_insert_of_ne _ hd, if_neg fun h => hd h.1]

end Catalog

namespace ProvisionStep

variable {strict : Bool} {c : Catalog} {steps : List ProvisionStep} {step : ProvisionStep}
  {entry : CatalogEntry}

/-! ## Entries -/

/-- Whether a step adds an entry to a catalog, if it changes anything.  A role named like the word in
front of an object is not granted. -/
def Adds : ProvisionStep → CatalogEntry → Prop
  | .role n _, .role n' => n' = n
  | .role n rs, .membership r m => r ∈ rs ∧ m = n
  | .member r m, .membership r' m' => r' = r ∧ m' = m ∧ r ≠ "ON"
  | .tryMember r m, .membership r' m' => r' = r ∧ m' = m ∧ r ≠ "ON"
  | .extension n, .extension n' => n' = n
  | _, _ => False

/-- An entry that is there after a step was there before, or the step adds it. -/
theorem has_of_effect (h : (step.effect strict c).Has entry) : c.Has entry ∨ step.Adds entry := by
  have hjoin : ∀ {r m : String}, (c.join strict r m).Has entry →
      c.Has entry ∨ (ProvisionStep.member r m).Adds entry := by
    intro r m h
    cases entry with
    | role name =>
        rw [Catalog.join_eq] at h
        exact .inl h
    | membership role member =>
        refine (Catalog.mem_rolesOf_join.mp h).imp_right fun h => ?_
        exact ⟨h.2.1, h.1, h.2.2.1⟩
    | extension name =>
        rw [Catalog.join_eq] at h
        exact .inl h
  cases step with
  | role n rs =>
      change (c.withRole n rs).Has entry at h
      rw [Catalog.withRole] at h
      split at h
      next => exact .inl h
      next =>
        cases entry with
        | role name =>
            change name ∈ (c.addRole n rs).roles at h
            rw [Catalog.roles_addRole, Std.ExtTreeSet.mem_insert] at h
            exact h.symm.imp_right fun h => (Std.LawfulEqCmp.eq_of_compare h).symm
        | membership role member =>
            refine (Catalog.mem_rolesOf_addRole.mp h).imp_right fun h => ?_
            exact ⟨h.2, h.1⟩
        | extension name =>
            rw [Catalog.addRole_eq] at h
            exact .inl h
  | member r m => exact hjoin h
  | tryMember r m => exact (hjoin h).imp_right fun h => by cases entry <;> exact h
  | database d o =>
      change (c.withDatabase d o).Has entry at h
      rw [Catalog.withDatabase_eq] at h
      exact .inl (by cases entry <;> exact h)
  | owner d o => exact .inl (by cases entry <;> exact h)
  | schema d n o =>
      change (c.withSchema d n o).Has entry at h
      rw [Catalog.withSchema_eq] at h
      exact .inl (by cases entry <;> exact h)
  | extension e =>
      cases entry with
      | role name => exact .inl h
      | membership role member => exact .inl h
      | extension name =>
          change name ∈ c.extensions.insert e at h
          rw [Std.ExtTreeSet.mem_insert] at h
          exact h.symm.imp_right fun h => (Std.LawfulEqCmp.eq_of_compare h).symm

/-- An entry that is there after some steps was there before, or one of the steps adds it. -/
theorem has_of_after (h : (after strict c steps).Has entry) :
    c.Has entry ∨ ∃ step ∈ steps, step.Adds entry := by
  induction steps generalizing c with
  | nil => exact .inl h
  | cons step rest ih =>
      rcases ih h with hearlier | ⟨other, hother, hadds⟩
      · refine (has_of_effect hearlier).imp_right fun hadds => ?_
        exact ⟨step, List.mem_cons_self .., hadds⟩
      · exact .inr ⟨other, List.mem_cons_of_mem _ hother, hadds⟩

/-- Steps take no entry away. -/
theorem grows_after (steps : List ProvisionStep) : Catalog.Grows c (after strict c steps) := by
  induction steps generalizing c with
  | nil => exact .refl c
  | cons step rest ih => exact (grows_effect step).trans ih

/-! ## Databases -/

/-- Whether a step is about a database. -/
def IsAbout (database : String) : ProvisionStep → Prop
  | .database d _ | .owner d _ => d = database
  | _ => False

/-- The owner of a database is left by the steps that are not about it. -/
theorem getElem?_databases_after {d : String} (h : ∀ step ∈ steps, ¬step.IsAbout d) :
    (after strict c steps).databases[d]? = c.databases[d]? := by
  induction steps generalizing c with
  | nil => rfl
  | cons step rest ih =>
      refine (ih fun other hother => h other (List.mem_cons_of_mem _ hother)).trans ?_
      have hstep := h step (List.mem_cons_self ..)
      cases step with
      | role n rs => rw [effect, Catalog.withRole_eq]
      | member r m => rw [effect, Catalog.join_eq]
      | tryMember r m => rw [effect, Catalog.join_eq]
      | database e o =>
          show (c.withDatabase e o).databases[d]? = _
          rw [Catalog.withDatabase]
          split
          next => rfl
          next => exact NameMap.getElem?_insert_of_ne _ (Ne.symm hstep) o
      | owner e o => exact NameMap.getElem?_insert_of_ne _ (Ne.symm hstep) o
      | schema e n o => rw [effect, Catalog.withSchema_eq]
      | extension e => rfl

/-! ## Schemas -/

/-- The schemas are left by a step that is not about one. -/
theorem schemas_effect (h : ∀ d n o, step ≠ .schema d n o) :
    (step.effect strict c).schemas = c.schemas := by
  cases step with
  | role n rs => rw [effect, Catalog.withRole_eq]
  | member r m => rw [effect, Catalog.join_eq]
  | tryMember r m => rw [effect, Catalog.join_eq]
  | database d o => rw [effect, Catalog.withDatabase_eq]
  | owner d o => rfl
  | schema d n o => exact absurd rfl (h d n o)
  | extension n => rfl

/-- When only one schema is made it is the only one that may be new, and it keeps its owner if it is
not. -/
theorem schemaOwner?_after {d n o : String}
    (h : ∀ step ∈ steps, ∀ d' n' o', step = .schema d' n' o' → step = .schema d n o)
    (d' n' : String) : (after strict c steps).schemaOwner? d' n' =
      if (d' = d ∧ n' = n) ∧ .schema d n o ∈ steps then some ((c.schemaOwner? d n).getD o)
      else c.schemaOwner? d' n' := by
  induction steps generalizing c with
  | nil => simp [after]
  | cons step rest ih =>
      refine (ih fun other hother => h other (List.mem_cons_of_mem _ hother)).trans ?_
      by_cases hstep : step = .schema d n o
      · subst hstep
        have heffect := Catalog.schemaOwner?_withSchema (c := c) d n o
        change (if _ then some (((c.withSchema d n o).schemaOwner? d n).getD o)
          else (c.withSchema d n o).schemaOwner? d' n') = _
        rw [heffect d' n', heffect d n, if_pos (show d = d ∧ n = n from ⟨rfl, rfl⟩),
          Option.getD_some]
        by_cases hsame : d' = d ∧ n' = n
        · simp [hsame]
        · simp [hsame]
      · have hschemas : (step.effect strict c).schemas = c.schemas :=
          schemas_effect fun d' n' o' hschema =>
            hstep (h step (List.mem_cons_self ..) d' n' o' hschema)
        have hne : ProvisionStep.schema d n o ≠ step := Ne.symm hstep
        simp only [Catalog.schemaOwner?, hschemas, List.mem_cons, hne, false_or]

end ProvisionStep

namespace Cluster

open ProvisionStep

variable {strict : Bool} {c : Catalog} {admin : String} {target : DatabaseTarget}
  {m r d : Identifier} {es : List Identifier} {step : ProvisionStep} {entry : CatalogEntry}

/-! ## The steps to a database -/

/-- The steps to a database, one by one. -/
inductive StepTo (c : Catalog) (admin : String) (target : DatabaseTarget) (m r d : Identifier)
    (es : List Identifier) : ProvisionStep → Prop
  /-- The manager role is made. -/
  | manager : StepTo c admin target m r d es (.role m.name [])
  /-- The login role is made. -/
  | login : StepTo c admin target m r d es (.role r.name (Command.newRoles
      (Statement.createRole r true (some target.password)
        (if r.name = m.name then [] else [m])).text.toList))
  /-- The login role joins the manager role. -/
  | join : r.name ≠ m.name → StepTo c admin target m r d es (.member m.name r.name)
  /-- The manager role joins the login role. -/
  | joinBack : r.name ≠ m.name → StepTo c admin target m r d es (.tryMember r.name m.name)
  /-- The database is made. -/
  | database : StepTo c admin target m r d es (.database d.name admin)
  /-- The database is given away. -/
  | owner : StepTo c admin target m r d es
      (.owner d.name (if target.shared then m.name else r.name))
  /-- The login role joins the previous owner. -/
  | previous {owner : String} : previousOwner? c admin m.name target = some owner →
      StepTo c admin target m r d es (.member owner r.name)
  /-- The schema is made. -/
  | schema : StepTo c admin target m r d es (.schema d.name d.name r.name)
  /-- An extension is installed. -/
  | extension {e : Identifier} : e ∈ es → StepTo c admin target m r d es (.extension e.name)

theorem mem_allSteps_iff :
    step ∈ allSteps c admin target m r d es ↔ StepTo c admin target m r d es step := by
  constructor
  · intro h
    rcases List.mem_append.mp h with h | h
    · rcases List.mem_append.mp h with h | h
      · rcases List.mem_append.mp h with h | h
        · rcases List.mem_cons.mp h with rfl | h
          · exact .manager
          · rcases List.mem_cons.mp h with rfl | h
            · exact .login
            · obtain ⟨g, hg, rfl⟩ := List.mem_map.mp h
              split at hg
              next => cases hg
              next hne =>
                rw [List.mem_singleton.mp hg]
                exact .join hne
        · unfold joinSteps at h
          split at h
          next => cases h
          next hne =>
            rw [List.mem_singleton.mp h]
            exact .joinBack hne
      · rcases List.mem_cons.mp h with rfl | h
        · exact .database
        · rw [List.mem_singleton.mp h]
          exact .owner
    · rcases List.mem_append.mp h with h | h
      · obtain ⟨owner, howner, rfl⟩ := Option.map_eq_some_iff.mp (Option.mem_toList.mp h)
        exact .previous howner
      · rcases List.mem_cons.mp h with rfl | h
        · exact .schema
        · obtain ⟨e, he, rfl⟩ := List.mem_map.mp h
          exact .extension he
  · intro h
    unfold allSteps headSteps roleSteps loginSteps joinSteps previousSteps schemaSteps
    cases h with
    | manager => simp
    | login => simp
    | join hne => simp [hne]
    | joinBack hne => simp [hne]
    | database => simp
    | owner => simp
    | previous howner => simp [howner]
    | schema => simp
    | @extension e he =>
        refine List.mem_append_right _ (List.mem_append_right _ (List.mem_cons_of_mem _ ?_))
        exact List.mem_map_of_mem he

/-- Whether a role may become a member of another by the steps to a database. -/
def Joins (c : Catalog) (admin manager : String) (target : DatabaseTarget)
    (role member : String) : Prop :=
  (target.user ≠ manager ∧
    (role = manager ∧ member = target.user ∨ role = target.user ∧ member = manager)) ∨
  (previousOwner? c admin manager target = some role ∧ role ≠ "ON" ∧ member = target.user)

/-- Whether an entry may be added by the steps to a database. -/
def MayAdd (c : Catalog) (admin manager : String) (target : DatabaseTarget)
    (extensions : List String) : CatalogEntry → Prop
  | .role n => n = manager ∨ n = target.user
  | .membership r m => Joins c admin manager target r m
  | .extension n => n ∈ extensions

/-- The steps to a database add nothing else, if no further roles are read out of the password. -/
theorem mayAdd_of_adds (hr : r.name = target.user)
    (hpassword : Text.occursIn Command.inRoleMark target.password.toList = false)
    (hstep : step ∈ allSteps c admin target m r d es) (hadds : step.Adds entry) :
    MayAdd c admin m.name target (es.map (·.name)) entry := by
  cases mem_allSteps_iff.mp hstep with
  | manager =>
      cases entry with
      | role name => exact .inl hadds
      | membership role member => cases hadds.1
      | extension name => exact hadds.elim
  | login =>
      cases entry with
      | role name => exact .inr (hadds.trans hr)
      | membership role member =>
          obtain ⟨hrole, rfl⟩ := hadds
          rw [Statement.newRoles_createLogin r (by split <;> simp) hpassword] at hrole
          split at hrole
          next => cases hrole
          next hne =>
            rw [List.map_singleton, List.mem_singleton] at hrole
            exact .inl ⟨hr ▸ hne, .inl ⟨hrole, hr⟩⟩
      | extension name => exact hadds.elim
  | join hne =>
      cases entry with
      | membership role member =>
          exact .inl ⟨hr ▸ hne, .inl ⟨hadds.1, hadds.2.1.trans hr⟩⟩
      | _ => exact hadds.elim
  | joinBack hne =>
      cases entry with
      | membership role member => exact .inl ⟨hr ▸ hne, .inr ⟨hadds.1.trans hr, hadds.2.1⟩⟩
      | _ => exact hadds.elim
  | previous howner =>
      cases entry with
      | membership role member =>
          obtain ⟨rfl, hmember, hon⟩ := hadds
          exact .inr ⟨howner, hon, hmember.trans hr⟩
      | _ => exact hadds.elim
  | extension he =>
      cases entry with
      | extension name =>
          rw [show name = _ from hadds]
          exact List.mem_map_of_mem he
      | _ => exact hadds.elim
  | database => cases entry <;> exact hadds.elim
  | owner => cases entry <;> exact hadds.elim
  | schema => cases entry <;> exact hadds.elim

/-- So what is there after some of the steps was there before or is among these entries. -/
theorem mayAdd_of_leftBy {left : Catalog} (hr : r.name = target.user)
    (hpassword : Text.occursIn Command.inRoleMark target.password.toList = false)
    (hleft : LeftBy strict c (allSteps c admin target m r d es) left) (hentry : left.Has entry) :
    c.Has entry ∨ MayAdd c admin m.name target (es.map (·.name)) entry := by
  obtain ⟨done, rest, hsteps, -, rfl⟩ := hleft
  refine (has_of_after hentry).imp_right fun ⟨step, hstep, hadds⟩ => ?_
  have hmem : step ∈ allSteps c admin target m r d es := by
    rw [hsteps]
    exact List.mem_append_left _ hstep
  exact mayAdd_of_adds hr hpassword hmem hadds

end Cluster

end PgSteward
