import PgSteward.Proofs.ProvisionChanges

/-!
# Who gets the role of the administrator

When a database is shared its login role becomes a member of the role that owned the database
before.  The owner is asked for after the database has been made, and a new database belongs to the
administrator.  So the login role of a new shared database becomes a member of the administrator,
with all that the administrator may do (`joins_admin_of_new`).

This is the only way to get the role (`withholds_iff`).  A run that is stopped has not come to this
point: the last step that may be impossible is the membership itself
(`finish_allSteps_of_not_passes`), and the steps before it know of no previous owner
(`joins_of_headSteps`).
-/

namespace PgSteward

namespace Cluster

open ProvisionStep

variable {strict : Bool} {c : Catalog} {admin : String} {target : DatabaseTarget}
  {m r d : Identifier} {es : List Identifier} {steps others : List ProvisionStep}

theorem finish_append_of_not_passes (h : ¬Passes strict c steps) :
    finish strict c (steps ++ others) = finish strict c steps := by
  induction steps generalizing c with
  | nil => exact absurd trivial h
  | cons step rest ih =>
      rw [List.cons_append, finish, finish]
      by_cases hpossible : step.Possible strict c
      · rw [if_pos hpossible, if_pos hpossible, ih fun hrest => h ⟨hpossible, hrest⟩]
      · rw [if_neg hpossible, if_neg hpossible]

/-- Steps up to the first that is impossible are some of the steps. -/
theorem leftBy_finish (steps : List ProvisionStep) :
    LeftBy strict c steps (finish strict c steps) := by
  induction steps generalizing c with
  | nil => exact ⟨[], [], rfl, trivial, rfl⟩
  | cons step rest ih =>
      rw [finish]
      by_cases hpossible : step.Possible strict c
      · rw [if_pos hpossible]
        obtain ⟨done, others, hrest, hpasses, hleft⟩ := ih (c := step.effect strict c)
        exact ⟨step :: done, others, by rw [hrest]; rfl, ⟨hpossible, hpasses⟩, hleft⟩
      · rw [if_neg hpossible]
        exact ⟨[], step :: rest, rfl, trivial, rfl⟩

/-- When not all steps to a database are possible, it ends with the steps up to the owner. -/
theorem finish_allSteps_of_not_passes (h : ¬Passes strict c (allSteps c admin target m r d es)) :
    finish strict c (allSteps c admin target m r d es) =
      finish strict c (headSteps admin target m r d) := by
  by_cases hhead : Passes strict c (headSteps admin target m r d)
  · have hrest : ¬Passes strict (after strict c (headSteps admin target m r d))
        (previousSteps c admin target m r ++ schemaSteps r d es) := fun hrest =>
      h (passes_append_iff.mpr ⟨hhead, hrest⟩)
    rw [allSteps, finish_append hhead, finish_of_passes hhead]
    unfold previousSteps at hrest ⊢
    generalize previousOwner? c admin m.name target = previous at hrest ⊢
    cases previous with
    | none => exact absurd (passes_schemaSteps _) hrest
    | some owner => exact if_neg fun hpossible => hrest ⟨hpossible, passes_schemaSteps _⟩
  · exact finish_append_of_not_passes hhead

/-- The steps up to the owner make no role a member of a previous owner: they are the same when the
database is the manager role's already. -/
theorem joins_of_headSteps {role member : String} (hr : r.name = target.user)
    (hpassword : Text.occursIn Command.inRoleMark target.password.toList = false)
    (h : role ∈ (finish strict c (headSteps admin target m r d)).rolesOf member) :
    role ∈ c.rolesOf member ∨ role = m.name ∨ role = target.user := by
  have hhead : LeftBy strict c (headSteps admin target m r d)
      (finish strict c (headSteps admin target m r d)) := leftBy_finish _
  obtain ⟨done, rest, hsteps, -, hleft⟩ := hhead
  have hhas : (after strict c done).Has (.membership role member) := hleft ▸ h
  refine (has_of_after hhas).imp_right ?_
  rintro ⟨step, hstep, hadds⟩
  set owned := c.withOwner target.name m.name with howned
  have hmem : step ∈ allSteps owned admin target m r d [] := by
    rw [allSteps, hsteps]
    exact List.mem_append_left _ (List.mem_append_left _ hstep)
  have hnone : owned.databases.getD target.name admin = m.name :=
    Std.ExtTreeMap.getD_insert_self
  rcases mayAdd_of_adds hr hpassword hmem hadds with ⟨-, h | h⟩ | ⟨howner, -⟩
  · exact .inl h.1
  · exact .inr h.1
  · obtain ⟨-, hown, -, hne⟩ := previousOwner?_eq_some_iff.mp howner
    exact absurd (hown.symm.trans hnone) hne

/-- The owner of a new database before it is given away is the administrator. -/
theorem previousOwner?_of_new (hshared : target.shared = true) (hnew : target.name ∉ c.databases)
    (huser : admin ≠ target.user) (hmanager : admin ≠ m.name) :
    previousOwner? c admin m.name target = some admin :=
  previousOwner?_eq_some_iff.mpr
    ⟨hshared, Std.ExtTreeMap.getD_eq_fallback hnew, huser, hmanager⟩

/-- So all steps to a new shared database make the login role a member of the administrator. -/
theorem joins_admin_of_new (hr : r.name = target.user) (hshared : target.shared = true)
    (hnew : target.name ∉ c.databases) (huser : admin ≠ target.user) (hmanager : admin ≠ m.name)
    (hon : admin ≠ "ON") (hpasses : Passes strict c (allSteps c admin target m r d es)) :
    admin ∈ (finish strict c (allSteps c admin target m r d es)).rolesOf target.user := by
  have hprevious := previousOwner?_of_new hshared hnew huser hmanager
  have hdone := done_after allSteps_pairwise hpasses _ (mem_allSteps_iff.mpr (.previous hprevious))
  rw [finish_of_passes hpasses, ← hr]
  exact (hdone.2.resolve_left hon).2

end Cluster

namespace ProvisionCall

open Cluster

variable {call : ProvisionCall} {s : Cluster}

/-- Whether a call gives away no more roles than it has to: the login role may become a member of
the manager role and of a role that owned the shared database before, and nobody of the
administrator unless the database was the administrator's before. -/
structure Withholds (call : ProvisionCall) (before after : Catalog) : Prop where
  login : ∀ role ∈ after.rolesOf call.target.user, role ∈ before.rolesOf call.target.user ∨
    role = call.managerRole ∨
      (call.target.shared = true ∧ before.databases[call.target.name]? = some role)
  admin : ∀ member, call.admin.user ∈ after.rolesOf member →
    call.admin.user ∈ before.rolesOf member ∨
      before.databases[call.target.name]? = some call.admin.user

/-- A call that changes no membership withholds everything. -/
theorem withholds_refl (call : ProvisionCall) (c : Catalog) : call.Withholds c c :=
  ⟨fun _ hrole => .inl hrole, fun _ hmember => .inl hmember⟩

/-- A call withholds the role of the administrator when it gives it to nobody who did not have it,
unless the database was the administrator's. -/
theorem withholds_of_mayAdd {before after : Catalog}
    (huser : call.admin.user ≠ call.target.user) (hmanager : call.admin.user ≠ call.managerRole)
    (h : ∀ role member, role ∈ after.rolesOf member → role ∈ before.rolesOf member ∨
      Joins before call.admin.user call.managerRole call.target role member)
    (hnew : call.target.shared = true → call.target.name ∉ before.databases →
      call.admin.user ≠ "ON" → call.admin.user ∈ after.rolesOf call.target.user →
      call.admin.user ∈ before.rolesOf call.target.user) : call.Withholds before after := by
  have hprevious : ∀ role,
      previousOwner? before call.admin.user call.managerRole call.target = some role →
      role ≠ "ON" → role ∈ after.rolesOf call.target.user →
      role ∈ before.rolesOf call.target.user ∨
        (call.target.shared = true ∧ before.databases[call.target.name]? = some role) := by
    intro role howner hon hrole
    obtain ⟨hshared, hown, -, -⟩ := previousOwner?_eq_some_iff.mp howner
    rw [Std.ExtTreeMap.getD_eq_getD_getElem?] at hown
    cases hbefore : before.databases[call.target.name]? with
    | some owner =>
        rw [hbefore] at hown
        exact .inr ⟨hshared, congrArg some hown⟩
    | none =>
        rw [hbefore] at hown
        subst hown
        have habsent : call.target.name ∉ before.databases := by
          rw [Std.ExtTreeMap.mem_iff_isSome_getElem?, hbefore]
          exact Bool.false_ne_true
        exact .inl (hnew hshared habsent hon hrole)
  constructor
  · intro role hrole
    rcases h role _ hrole with hold | ⟨hne, ⟨rfl, -⟩ | ⟨-, hself⟩⟩ | ⟨howner, hon, -⟩
    · exact .inl hold
    · exact .inr (.inl rfl)
    · exact absurd hself hne
    · exact (hprevious role howner hon hrole).imp_right .inr
  · intro member hmember
    rcases h _ member hmember with hold | ⟨-, ⟨hself, -⟩ | ⟨hself, -⟩⟩ | ⟨howner, hon, rfl⟩
    · exact .inl hold
    · exact absurd hself hmanager
    · exact absurd hself huser
    · exact (hprevious _ howner hon hmember).imp_right And.right

/-- A call without failing statements gives away no more roles than it has to, except when it
succeeds in sharing a database that is new.  Then the login role becomes a member of the
administrator, if it is not one already. -/
theorem withholds_iff (call : ProvisionCall) (s : Cluster) (hs : s.failures = [])
    (huser : call.admin.user ≠ call.target.user) (hmanager : call.admin.user ≠ call.managerRole)
    (hpassword : Text.occursIn Command.inRoleMark call.target.password.toList = false) :
    call.Withholds s.catalog ((call.run Cluster.server).outcome s).2.catalog ↔
      ¬((call.run Cluster.server).succeeds s = true ∧ call.target.shared = true ∧
        call.target.name ∉ s.catalog.databases ∧ call.admin.user ≠ "ON" ∧
        call.admin.user ∉ s.catalog.rolesOf call.target.user) := by
  rcases names_or_error call Cluster.server s with ⟨m, r, d, es, hm, hr, hd, hes⟩ | ⟨e, herror⟩
  swap
  · rw [Program.outcome, Program.succeeds, herror]
    exact iff_of_true (withholds_refl call _) fun h => Bool.false_ne_true h.1
  obtain ⟨hsucceeds, hcatalog⟩ :=
    (follows_run_of_no_failures hs hm hr hd hes).finish (spares_of_no_failures hs)
  set steps := allSteps s.catalog call.admin.user call.target m r d es with hsteps
  rw [hcatalog, hsucceeds]
  have hadded : ∀ role member, role ∈
      (ProvisionStep.finish s.strict s.catalog steps).rolesOf member →
      role ∈ s.catalog.rolesOf member ∨
        Joins s.catalog call.admin.user call.managerRole call.target role member := by
    intro role member h
    have hhas : (ProvisionStep.finish s.strict s.catalog steps).Has (.membership role member) := h
    rw [← hm]
    exact mayAdd_of_leftBy hr hpassword (leftBy_finish steps) hhas
  constructor
  · rintro hwithholds ⟨hpasses, hshared, habsent, hon, hnot⟩
    have hnone : s.catalog.databases[call.target.name]? = none :=
      Std.ExtTreeMap.getElem?_eq_none habsent
    have hmember := joins_admin_of_new hr hshared habsent huser (hm ▸ hmanager) hon hpasses
    rcases hwithholds.admin _ hmember with hold | howned
    · exact hnot hold
    · cases hnone.symm.trans howned
  · intro hclean
    refine withholds_of_mayAdd huser hmanager hadded fun hshared habsent hon hmember => ?_
    by_contra hnot
    have hstopped : ¬ProvisionStep.Passes s.strict s.catalog steps := fun hpasses =>
      hclean ⟨hpasses, hshared, habsent, hon, hnot⟩
    rw [finish_allSteps_of_not_passes hstopped] at hmember
    rcases joins_of_headSteps hr hpassword hmember with hold | hself | hself
    · exact hnot hold
    · exact hmanager (hself.trans hm)
    · exact huser hself

/-- The orders were another role's, and the administrator's role is withheld. -/
theorem ordersCall_withholds :
    legacyCluster.failures = [] ∧ ordersCall.admin.user ≠ ordersCall.target.user ∧
      ordersCall.admin.user ≠ ordersCall.managerRole ∧
      Text.occursIn Command.inRoleMark ordersCall.target.password.toList = false ∧
      ordersCall.Withholds legacyCluster.catalog
        ((ordersCall.run Cluster.server).outcome legacyCluster).2.catalog := by
  have huser : ordersCall.admin.user ≠ ordersCall.target.user := by decide
  have hmanager : ordersCall.admin.user ≠ ordersCall.managerRole := by decide
  have hpassword : Text.occursIn Command.inRoleMark ordersCall.target.password.toList = false := by
    decide +kernel
  have hthere : ordersCall.target.name ∈ legacyCluster.catalog.databases := by decide +kernel
  exact ⟨rfl, huser, hmanager, hpassword,
    (withholds_iff ordersCall legacyCluster rfl huser hmanager hpassword).mpr
      fun h => h.2.2.1 hthere⟩

/-- On a cluster without the orders the same call makes the login role a member of the
administrator. -/
theorem ordersCall_not_withholds :
    ordersCall.admin.user ≠ ordersCall.target.user ∧
      ordersCall.admin.user ≠ ordersCall.managerRole ∧
      ordersCall.target.user ≠ ordersCall.managerRole ∧
      (ordersCall.run Cluster.server).succeeds {} = true ∧
      ordersCall.admin.user ∈
        ((ordersCall.run Cluster.server).outcome {}).2.catalog.rolesOf ordersCall.target.user ∧
      ¬ordersCall.Withholds {} ((ordersCall.run Cluster.server).outcome {}).2.catalog := by
  have hmember : ordersCall.admin.user ∈
      ((ordersCall.run Cluster.server).outcome {}).2.catalog.rolesOf ordersCall.target.user := by
    decide +kernel
  refine ⟨by decide, by decide, by decide, by decide +kernel, hmember, fun h => ?_⟩
  rcases h.admin _ hmember with hold | howned
  · exact absurd hold (by decide +kernel)
  · exact absurd howned (by decide +kernel)

end ProvisionCall

end PgSteward
