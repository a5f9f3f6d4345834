import PgSteward.Proofs.RelatedWork

/-!
# What convergence leaves alone

A run for a login role works on this login role only.  Whatever statements the server refuses, and
whether the run fails or not, the roles of all others are as they were, and so are the databases,
the schemas and the extensions (`touchesOnly_converge`).

The statements of a run are known (`Converger.RunBy`), and each of them leaves the catalog as it is,
makes a role or gives or takes away a role of the login role (`Catalog.StepFor`).  The frame holds
over one such step, and so over all that a run comes to, up to any failure.
-/

namespace PgSteward

open Program

namespace Catalog

/-- What a statement of a run for a login role may make of a catalog. -/
inductive StepFor (login : String) (required : RequiredRoles) (c : Catalog) : Catalog → Prop
  | same : StepFor login required c c
  | made {role : String} (hrole : role = login ∨ ∃ g, required[role]? = some (some g)) :
      StepFor login required c { c with roles := c.roles.insert role }
  | given (role : String) : StepFor login required c (c.addMembership login role)
  | taken {role : String} (hrole : isManagedRole role = true) :
      StepFor login required c (c.dropMembership login role)

/-- Whether a catalog differs from another only in what concerns a login role, and in new roles of a
kind. -/
structure TouchesOnly (login : String) (new : String → Prop) (c c' : Catalog) : Prop where
  /-- The roles of all others are as they were. -/
  others : ∀ other, other ≠ login → c'.rolesOf other = c.rolesOf other
  /-- The login role has kept its roles that are not managed. -/
  unmanaged : ∀ role ∈ c.rolesOf login, isManagedRole role = false → role ∈ c'.rolesOf login
  databases : c'.databases = c.databases
  schemas : c'.schemas = c.schemas
  extensions : c'.extensions = c.extensions
  /-- No role has disappeared. -/
  roles : ∀ role ∈ c.roles, role ∈ c'.roles
  /-- Roles that were not there before are of the kind. -/
  newRoles : ∀ role ∈ c'.roles, role ∈ c.roles ∨ new role

namespace TouchesOnly

variable {login : String} {new : String → Prop} {required : RequiredRoles} {c c' c'' : Catalog}

theorem refl (login : String) (new : String → Prop) (c : Catalog) : c.TouchesOnly login new c where
  others := fun _ _ => rfl
  unmanaged := fun _ hrole _ => hrole
  databases := rfl
  schemas := rfl
  extensions := rfl
  roles := fun _ hrole => hrole
  newRoles := fun _ hrole => .inl hrole

theorem trans (h : c.TouchesOnly login new c') (h' : c'.TouchesOnly login new c'') :
    c.TouchesOnly login new c'' where
  others := fun other hother => (h'.others other hother).trans (h.others other hother)
  unmanaged := fun role hrole hplain => h'.unmanaged role (h.unmanaged role hrole hplain) hplain
  databases := h'.databases.trans h.databases
  schemas := h'.schemas.trans h.schemas
  extensions := h'.extensions.trans h.extensions
  roles := fun role hrole => h'.roles role (h.roles role hrole)
  newRoles := fun role hrole => (h'.newRoles role hrole).elim (h.newRoles role) .inr

end TouchesOnly

/-- A step for a login role touches nothing else. -/
theorem StepFor.touchesOnly {login : String} {new : String → Prop} {required : RequiredRoles}
    {c c' : Catalog} (h : c.StepFor login required c') (hlogin : new login)
    (hmanaged : ∀ role g, required[role]? = some (some g) → new role) :
    c.TouchesOnly login new c' := by
  have hsame := TouchesOnly.refl login new c
  cases h with
  | same => exact hsame
  | @made made hmade =>
      have hnew : new made := by
        rcases hmade with rfl | ⟨g, hg⟩
        · exact hlogin
        · exact hmanaged made g hg
      refine ⟨fun _ _ => rfl, fun _ hrole _ => hrole, rfl, rfl, rfl, ?_, ?_⟩
      · exact fun role hrole => Std.ExtTreeSet.mem_insert.mpr (.inr hrole)
      · intro role hrole
        rw [Std.ExtTreeSet.mem_insert, Std.LawfulEqCmp.compare_eq_iff_eq] at hrole
        rcases hrole with rfl | hrole
        · exact .inr hnew
        · exact .inl hrole
  | given given =>
      refine ⟨fun other hother => ?_, fun role hrole _ => ?_, rfl, rfl, rfl, hsame.roles,
        hsame.newRoles⟩
      · rw [rolesOf_addMembership, if_neg hother.symm]
      · rw [rolesOf_addMembership, if_pos rfl]
        exact Std.ExtTreeSet.mem_insert.mpr (.inr hrole)
  | @taken taken htaken =>
      refine ⟨fun other hother => ?_, fun role hrole hplain => ?_, ?_, ?_, ?_, ?_, ?_⟩
      · rw [rolesOf_dropMembership, if_neg hother.symm]
      · rw [rolesOf_dropMembership, if_pos rfl, Std.ExtTreeSet.mem_erase]
        refine ⟨fun heq => ?_, hrole⟩
        rw [Std.LawfulEqCmp.compare_eq_iff_eq.mp heq, hplain] at htaken
        cases htaken
      all_goals rw [dropMembership_eq]
      · exact hsame.roles
      · exact hsame.newRoles

end Catalog

namespace Converger

variable {c : Converger Cluster} {login : String}

/-- Every statement of a run is a step for the login role. -/
theorem RunBy.stepFor {required : RequiredRoles} {st : Statement}
    (h : RunBy login required st) (session : Session) (s : Cluster) :
    s.catalog.StepFor login required ((Cluster.server.run session st).outcome s).2.catalog := by
  obtain ⟨e, after, hafter, hcatalog⟩ :=
    Cluster.outcome_run_server session st s
  rw [hafter]
  show s.catalog.StepFor login required after
  rcases hcatalog with rfl | rfl
  · exact .same
  have hquiet : st.IsQuiet → s.catalog.StepFor login required
      ((Cluster.effectOf session st s).outcome s.catalog).2 := fun hst => by
    rw [Cluster.outcome_effect_quiet hst]
    exact .same
  cases h with
  | login hi =>
      rw [Cluster.outcome_effect_createRole]
      exact .made (.inl hi)
  | @give role _ hrole hst =>
      generalize hgrant : required[role]?.join = grant at hst
      cases hst with
      | @createRole grant _ hi =>
          rw [Cluster.outcome_effect_createRole, hi]
          exact .made (.inr ⟨grant, Option.join_eq_some_iff.mp hgrant⟩)
      | grantConnect => exact hquiet trivial
      | grantUsage => exact hquiet trivial
      | grantTables => exact hquiet trivial
      | @grantRole _ i j hi hj =>
          rcases Cluster.outcome_effect_grantRoles session s i j with
            hsame | hgiven
          · rw [hsame]
            exact .same
          · rw [hgiven, hj]
            exact .given i.name
  | @revoke i j hmanaged hi hj =>
      rcases Cluster.outcome_effect_revokeRole session s i j with
        hsame | htaken
      · rw [hsame]
        exact .same
      · rw [htaken, hj]
        exact .taken hmanaged

/-- A run touches only its login role, and makes only this role and managed roles that it needs. -/
theorem touchesOnly_of_needed (hc : c.server = Cluster.server) {new : String → Prop}
    {access : AccessMap} (hlogin : new login)
    (hmanaged : ∀ host ∈ (c.byHost access).toList, ∀ role g,
      (RequiredRoles.onHost c.staticRoles host.2)[role]? = some (some g) → new role)
    (s : Cluster) :
    s.catalog.TouchesOnly login new ((c.converge login access).outcome s).2.catalog := by
  have hserver : ∀ host ∈ (c.byHost access).toList,
      c.server.Related (fun u v => u = v ∧ s.catalog.TouchesOnly login new u.catalog)
        (RunBy login (.onHost c.staticRoles host.2)) c.server := by
    intro host hhost
    rw [hc]
    refine (Cluster.related_preserving fun _ _ hu => hu).imp fun st hst session u hu => ?_
    exact hu.trans ((hst.stepFor session u).touchesOnly hlogin (hmanaged host hhost))
  have hrun : Related (fun u v => u = v ∧ s.catalog.TouchesOnly login new u.catalog)
      (c.converge login access) (c.converge login access) := related_converge hserver
  exact (hrun s s ⟨rfl, .refl login new s.catalog⟩).2.2

end Converger

/-- Whether a role is the managed role that the accesses of a plan to some database on some host
come to. -/
def AccessMap.Needs (access : AccessMap) (role : String) : Prop :=
  ∃ (host database : String) (n : DatabaseNeed),
    (needsOf (access.all.filter fun a => a.host = host))[database]? = some n ∧
      n.role database = role

namespace Converger

/-- Whatever the catalog, the statements that are refused and the plan, a run for a login role
leaves everything alone but the roles of this login role, of which it takes away only managed ones.
The only roles it makes are the login role and managed roles that the plan needs. -/
theorem touchesOnly_converge (logins : NameMap AdminLogin) (static : List String)
    (adminDatabase login : String) (access : AccessMap) (s : Cluster) :
    s.catalog.TouchesOnly login (fun role => role = login ∨ access.Needs role)
      (((inMemory logins static adminDatabase).converge login access).outcome s).2.catalog := by
  refine touchesOnly_of_needed rfl (.inl rfl) ?_ s
  rintro ⟨host, accesses⟩ hhost role g hg
  have haccesses := getElem?_byHost (Std.ExtTreeMap.mem_toList_iff_getElem?_eq_some.mp hhost)
  unfold RequiredRoles.onHost at hg
  split at hg
  next => simp at hg
  next =>
    obtain ⟨database, n, hn, hrole, -⟩ := RequiredRoles.getElem?_of_eq_some_iff.mp hg
    exact .inr ⟨host, database, n, haccesses ▸ hn, hrole⟩

end Converger

end PgSteward
