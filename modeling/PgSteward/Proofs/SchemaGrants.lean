import PgSteward.Proofs.ConvergenceRuns

/-!
# Grants on schemas

The log of a cluster tells which statements it has executed.  Grants on schemas get into it in one
way only: a managed role that a login role is given is prepared with the privileges that the
accesses of this login role need (`convergeHost_executed`).  A role that the login role holds
already is left as it is.
-/

namespace PgSteward

theorem Identifier.eq_of_name {i j : Identifier} (h : i.name = j.name) : i = j := by
  cases i
  cases j
  cases h
  rfl

namespace Statement

/-- Whether a statement grants something on a schema. -/
def IsOnSchema : Statement → Prop
  | .grantUsage .. | .grantTables .. => True
  | _ => False

/-- Whether a statement grants a role the use of a schema or privileges on its tables. -/
def GrantsOn (role schema : String) (privileges : TablePrivileges) : Statement → Prop
  | .grantUsage s r => r.name = role ∧ s.name = schema
  | .grantTables p s r => r.name = role ∧ s.name = schema ∧ p = privileges
  | _ => False

variable {st grant : Statement}

theorem IsOnSchema.isPlain (h : grant.IsOnSchema) : grant.IsPlain := by
  cases grant <;> trivial

/-- A grant on a schema is told from all other plain statements by its text. -/
theorem eq_of_text_eq (hst : st.IsPlain) (hgrant : grant.IsOnSchema) (h : st.text = grant.text) :
    st = grant := by
  have hwords := words_eq_of_text_eq hst hgrant.isPlain h
  cases grant with
  | grantUsage schema role =>
      cases st with
      | setPassword => exact hst.elim
      | alterService => exact hst.elim
      | grantRoles roles member =>
          obtain ⟨r, rfl⟩ := List.length_eq_one_iff.mp hst
          simp [words] at hwords
      | grantUsage s r =>
          simp only [words, List.cons.injEq, true_and, and_true] at hwords
          rw [Identifier.eq_of_name hwords.1, Identifier.eq_of_name hwords.2]
      | grantTables p s r => cases p <;> simp [words, TablePrivileges.words] at hwords
      | _ => simp [words] at hwords
  | grantTables privileges schema role =>
      cases st with
      | setPassword => exact hst.elim
      | alterService => exact hst.elim
      | grantRoles roles member =>
          obtain ⟨r, rfl⟩ := List.length_eq_one_iff.mp hst
          cases privileges <;> simp [words, TablePrivileges.words] at hwords
      | grantTables p s r =>
          cases p <;> cases privileges <;>
            simp [words, TablePrivileges.words] at hwords <;>
            rw [Identifier.eq_of_name hwords.1, Identifier.eq_of_name hwords.2]
      | _ => cases privileges <;> simp [words, TablePrivileges.words] at hwords
  | _ => exact hgrant.elim

theorem grantsOn_iff {schema role : Identifier} {privileges : TablePrivileges} :
    grant.GrantsOn role.name schema.name privileges ↔
      .grantUsage schema role = grant ∨ .grantTables privileges schema role = grant := by
  cases grant with
  | grantUsage s r =>
      constructor
      · rintro ⟨hr, hs⟩
        rw [Identifier.eq_of_name hr, Identifier.eq_of_name hs]
        exact .inl rfl
      · rintro (h | h)
        · cases h
          exact ⟨rfl, rfl⟩
        · cases h
  | grantTables p s r =>
      constructor
      · rintro ⟨hr, hs, rfl⟩
        rw [Identifier.eq_of_name hr, Identifier.eq_of_name hs]
        exact .inr rfl
      · rintro (h | h)
        · cases h
        · cases h
          exact ⟨rfl, rfl, rfl⟩
  | _ => simp [GrantsOn]

end Statement

namespace Cluster

/-- Whether a cluster has executed a statement. -/
def Executed (s : Cluster) (st : Statement) : Prop :=
  ∃ entry ∈ s.log, entry.statement = st.text ∧ entry.error = none

variable {refusal : Refusal} {session : Session} {st grant : Statement} {s t : Cluster}

theorem executed_recorded {text : String} {error : Option SqlError} {c : Catalog} :
    (s.recorded session text error c).Executed grant ↔
      s.Executed grant ∨ (text = grant.text ∧ error = none) := by
  unfold Executed recorded
  simp [or_and_right, exists_or]

/-- A statement with another text leaves open whether a grant has been executed. -/
theorem keeps_executed (h : st.text ≠ grant.text) :
    Program.Keeps (·.Executed grant) ((refusing refusal).run session st) := by
  refine keeps_run fun s e c _ => propext ?_
  rw [executed_recorded]
  simp [h]

theorem executed_of_run (h : (refusing refusal).run session st s = .ok () t) :
    t.Executed grant ↔ s.Executed grant ∨ st.text = grant.text := by
  obtain ⟨-, c, -, rfl⟩ := run_eq_ok_iff.mp h
  rw [executed_recorded]
  simp

/-- A plain statement that grants nothing on a schema is another one than a grant that does. -/
theorem keeps_executed_of_not_isOnSchema (hgrant : grant.IsOnSchema) (hst : st.IsPlain)
    (h : ¬st.IsOnSchema) : Program.Keeps (·.Executed grant) ((refusing refusal).run session st) :=
  keeps_executed fun htext => h (Statement.eq_of_text_eq hst hgrant htext ▸ hgrant)

theorem executed_of_run_other (hgrant : grant.IsOnSchema)
    (h : (refusing refusal).run session st s = .ok () t) (hst : st.IsPlain)
    (hother : ¬st.IsOnSchema) : t.Executed grant ↔ s.Executed grant :=
  iff_of_eq ((keeps_executed_of_not_isOnSchema hgrant hst hother).of_ok h)

theorem executed_of_run_onSchema (hgrant : grant.IsOnSchema)
    (h : (refusing refusal).run session st s = .ok () t) (hst : st.IsOnSchema) :
    t.Executed grant ↔ s.Executed grant ∨ st = grant := by
  rw [executed_of_run h]
  refine or_congr Iff.rfl ⟨Statement.eq_of_text_eq hst.isPlain hgrant, ?_⟩
  rintro rfl
  rfl

end Cluster

/-- Whether a statement is one of those that a managed role carries its privileges by. -/
def ManagedGrant.Carries (g : ManagedGrant) (role : String) (grant : Statement) : Prop :=
  ∃ schema ∈ g.schemas, grant.GrantsOn role schema g.privileges

namespace Converger

open Cluster

variable {c : Converger Cluster} {refusal : Refusal} {session : Session}
  {login host role : String} {admin : AdminLogin} {grant : Statement} {g : ManagedGrant}
  {s t : Cluster}

/-! ## A managed role -/

theorem grantSchemas_executed (hc : c.server = refusing refusal) (hgrant : grant.IsOnSchema)
    {schemas : List String} (h : c.grantSchemas session role g schemas s = .ok () t) :
    t.Executed grant ↔
      s.Executed grant ∨ ∃ schema ∈ schemas, grant.GrantsOn role schema g.privileges := by
  induction schemas generalizing s with
  | nil =>
      cases h
      simp
  | cons schema rest ih =>
      obtain ⟨_, s₁, husage, h⟩ := Program.bind_eq_ok_iff.mp h
      obtain ⟨_, s₂, htables, hrest⟩ := Program.bind_eq_ok_iff.mp h
      rw [hc] at husage htables
      obtain ⟨i, hi, husage⟩ := bind_name_eq_ok_iff.mp husage
      obtain ⟨r, hr, husage⟩ := bind_name_eq_ok_iff.mp husage
      obtain ⟨i', hi', htables⟩ := bind_name_eq_ok_iff.mp htables
      obtain ⟨r', hr', htables⟩ := bind_name_eq_ok_iff.mp htables
      obtain rfl : i = i' := Identifier.eq_of_name (hi.trans hi'.symm)
      obtain rfl : r = r' := Identifier.eq_of_name (hr.trans hr'.symm)
      have hgrants : grant.GrantsOn role schema g.privileges ↔
          .grantUsage i r = grant ∨ .grantTables g.privileges i r = grant := by
        rw [← hi, ← hr]
        exact Statement.grantsOn_iff
      rw [ih hrest, executed_of_run_onSchema hgrant htables trivial,
        executed_of_run_onSchema hgrant husage trivial]
      simp only [List.mem_cons, exists_eq_or_imp, hgrants, or_assoc]

theorem prepare_executed (hc : c.server = refusing refusal) (hgrant : grant.IsOnSchema)
    (h : c.prepare host admin role g s = .ok () t) :
    t.Executed grant ↔ s.Executed grant ∨ g.Carries role grant := by
  unfold prepare at h
  obtain ⟨session, s₁, hconnect, h⟩ := Program.bind_eq_ok_iff.mp h
  obtain ⟨_, s₂, hrole, h⟩ := Program.bind_eq_ok_iff.mp h
  obtain ⟨_, s₃, hdatabase, h⟩ := Program.bind_eq_ok_iff.mp h
  obtain ⟨_, s₄, hschemas, hclose⟩ := Program.bind_eq_ok_iff.mp h
  have hrole' : s₂.Executed grant = s₁.Executed grant := by
    rw [hc] at hrole
    exact (Server.keeps_ensureRole fun r =>
      keeps_executed_of_not_isOnSchema hgrant ⟨rfl, rfl⟩ id).of_ok hrole
  have hdatabase' : s₃.Executed grant ↔ s₂.Executed grant := by
    rw [hc] at hdatabase
    obtain ⟨d, -, hdatabase⟩ := bind_name_eq_ok_iff.mp hdatabase
    obtain ⟨r, -, hdatabase⟩ := bind_name_eq_ok_iff.mp hdatabase
    exact executed_of_run_other hgrant hdatabase trivial id
  have hconnect' : s₁.Executed grant = s.Executed grant := by
    rw [hc] at hconnect
    cases hconnect
    rfl
  have hclose' : t = s₄ := by
    rw [hc] at hclose
    cases hclose
    rfl
  rw [hclose', grantSchemas_executed hc hgrant hschemas, hdatabase', hrole', hconnect']
  simp [ManagedGrant.Carries]

theorem give_executed (hc : c.server = refusing refusal) (hgrant : grant.IsOnSchema)
    {managed : Option ManagedGrant}
    (h : c.give session host admin login role managed s = .ok () t) :
    t.Executed grant ↔ s.Executed grant ∨ ∃ g, managed = some g ∧ g.Carries role grant := by
  have hmember : ∀ {s₁ : Cluster}, c.server.grantRole session role login s₁ = .ok () t →
      (t.Executed grant ↔ s₁.Executed grant) := fun hmember => by
    rw [hc] at hmember
    obtain ⟨r, -, hmember⟩ := bind_name_eq_ok_iff.mp hmember
    obtain ⟨m, -, hmember⟩ := bind_name_eq_ok_iff.mp hmember
    exact executed_of_run_other hgrant hmember rfl id
  cases managed with
  | none =>
      rw [hmember h]
      simp
  | some g =>
      obtain ⟨_, s₁, hprepare, h⟩ := Program.bind_eq_ok_iff.mp h
      rw [hmember h, prepare_executed hc hgrant hprepare]
      simp

/-! ## All roles of a login role -/

theorem gives_executed (hc : c.server = refusing refusal) (hgrant : grant.IsOnSchema)
    {roles : List String} {managed : String → Option ManagedGrant}
    (h : Program.sequence
      (roles.map fun role => c.give session host admin login role (managed role)) s = .ok () t) :
    t.Executed grant ↔
      s.Executed grant ∨ ∃ role ∈ roles, ∃ g, managed role = some g ∧ g.Carries role grant := by
  induction roles generalizing s with
  | nil =>
      cases h
      simp
  | cons role rest ih =>
      obtain ⟨_, s₁, hgive, hrest⟩ := Program.bind_eq_ok_iff.mp h
      rw [ih hrest, give_executed hc hgrant hgive, or_assoc]
      simp

theorem revokes_executed (hc : c.server = refusing refusal) (hgrant : grant.IsOnSchema)
    {roles : List String}
    (h : Program.sequence (roles.map fun role => c.server.revokeRole session role login) s =
      .ok () t) : t.Executed grant ↔ s.Executed grant := by
  induction roles generalizing s with
  | nil =>
      cases h
      rfl
  | cons role rest ih =>
      obtain ⟨_, s₁, hrevoke, hrest⟩ := Program.bind_eq_ok_iff.mp h
      rw [hc] at hrevoke
      obtain ⟨r, -, hrevoke⟩ := bind_name_eq_ok_iff.mp hrevoke
      obtain ⟨m, -, hrevoke⟩ := bind_name_eq_ok_iff.mp hrevoke
      rw [ih hrest]
      exact executed_of_run_other hgrant hrevoke trivial id

/-- A successful run on a host executes the grants of those managed roles that the login role needs
and does not hold yet. -/
theorem convergeHost_executed (hc : c.server = refusing refusal) (hgrant : grant.IsOnSchema)
    {accesses : List PlannedAccess} (h : c.convergeHost login host accesses s = .ok () t) :
    t.Executed grant ↔ s.Executed grant ∨ ∃ role g,
      (RequiredRoles.onHost c.staticRoles accesses)[role]? = some (some g) ∧
        role ∉ s.catalog.rolesOf login ∧ g.Carries role grant := by
  obtain ⟨admin, s₁, -, hkeeps, hsteps⟩ := convergeHost_ok hc h
  have hmemberships : s₁.catalog.memberships = s.catalog.memberships :=
    hkeeps _ (·.catalog.memberships) (fun _ => rfl) fun _ role =>
      keeps_memberships_of_createRole role true
  have hroles : s₁.catalog.rolesOf login = s.catalog.rolesOf login := by
    rw [Catalog.rolesOf, hmemberships, Catalog.rolesOf]
  have hexecuted : s₁.Executed grant = s.Executed grant :=
    hkeeps _ (·.Executed grant) (fun _ => rfl) fun _ role =>
      keeps_executed_of_not_isOnSchema hgrant ⟨rfl, rfl⟩ id
  rw [steps, Program.sequence_append] at hsteps
  obtain ⟨_, s₂, hgives, hrevokes⟩ := Program.bind_eq_ok_iff.mp hsteps
  rw [revokes_executed hc hgrant hrevokes, gives_executed hc hgrant hgives, hexecuted]
  refine or_congr Iff.rfl ⟨?_, ?_⟩
  · rintro ⟨role, hrole, g, hg, hcarries⟩
    obtain ⟨-, hheld⟩ := RoleChange.mem_add_iff.mp hrole
    rw [hroles] at hheld
    exact ⟨role, g, Option.join_eq_some_iff.mp hg, hheld, hcarries⟩
  · rintro ⟨role, g, hg, hheld, hcarries⟩
    refine ⟨role, RoleChange.mem_add_iff.mpr ⟨?_, by rwa [hroles]⟩, g,
      Option.join_eq_some_iff.mpr hg, hcarries⟩
    rw [Std.ExtTreeMap.mem_iff_isSome_getElem?, hg]
    rfl

theorem names_of_grantSchemas (hc : c.server = refusing refusal) {schemas : List String}
    (h : c.grantSchemas session role g schemas s = .ok () t) :
    ∀ schema ∈ schemas, ∃ i r : Identifier, i.name = schema ∧ r.name = role := by
  induction schemas generalizing s with
  | nil => exact fun schema hschema => by cases hschema
  | cons first rest ih =>
      obtain ⟨_, s₁, husage, h⟩ := Program.bind_eq_ok_iff.mp h
      obtain ⟨_, s₂, -, hrest⟩ := Program.bind_eq_ok_iff.mp h
      rw [hc] at husage
      obtain ⟨i, hi, husage⟩ := bind_name_eq_ok_iff.mp husage
      obtain ⟨r, hr, -⟩ := bind_name_eq_ok_iff.mp husage
      intro schema hschema
      rcases List.mem_cons.mp hschema with rfl | hschema
      · exact ⟨i, r, hi, hr⟩
      · exact ih hrest schema hschema

/-- A successful run on a host has only met names that may stand in statements. -/
theorem names_of_convergeHost (hc : c.server = refusing refusal) {accesses : List PlannedAccess}
    (h : c.convergeHost login host accesses s = .ok () t)
    (hneeded : (RequiredRoles.onHost c.staticRoles accesses)[role]? = some (some g))
    (hnew : role ∉ s.catalog.rolesOf login) :
    ∀ schema ∈ g.schemas, ∃ i r : Identifier, i.name = schema ∧ r.name = role := by
  obtain ⟨admin, s₁, -, hkeeps, hsteps⟩ := convergeHost_ok hc h
  have hmemberships : s₁.catalog.memberships = s.catalog.memberships :=
    hkeeps _ (·.catalog.memberships) (fun _ => rfl) fun _ role =>
      keeps_memberships_of_createRole role true
  have hadd : role ∈ (RoleChange.of (s₁.catalog.rolesOf login).toList
      (RequiredRoles.onHost c.staticRoles accesses)).add := by
    rw [RoleChange.mem_add_iff, Catalog.rolesOf, hmemberships,
      Std.ExtTreeMap.mem_iff_isSome_getElem?, hneeded]
    exact ⟨rfl, hnew⟩
  obtain ⟨u, v, hgive⟩ := Program.ok_of_mem_sequence hsteps
    (List.mem_append_left _ (List.mem_map.mpr ⟨role, hadd, rfl⟩))
  rw [hneeded] at hgive
  obtain ⟨_, u₁, hprepare, -⟩ := Program.bind_eq_ok_iff.mp hgive
  unfold prepare at hprepare
  obtain ⟨session, s₁, -, hprepare⟩ := Program.bind_eq_ok_iff.mp hprepare
  obtain ⟨_, s₂, -, hprepare⟩ := Program.bind_eq_ok_iff.mp hprepare
  obtain ⟨_, s₃, -, hprepare⟩ := Program.bind_eq_ok_iff.mp hprepare
  obtain ⟨_, s₄, hschemas, -⟩ := Program.bind_eq_ok_iff.mp hprepare
  intro schema hschema
  exact names_of_grantSchemas hc hschemas schema (Std.ExtTreeSet.mem_toList.mpr hschema)

end Converger

end PgSteward
