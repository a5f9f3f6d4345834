import PgSteward.Proofs.ProvisionChanges
import PgSteward.Proofs.ProvisionRecord

/-!
# What making a database builds

On a server that refuses nothing and knows no circles every step to a database is possible, so a
call whose names a server reads as they are meant succeeds (`passes_allSteps`).  Afterwards the
roles, the database, its schema and its extensions are there, and nothing else has changed
(`Built`): a catalog has an entry after the call only if it had it before or a step adds it, and
what a step adds has not been taken away since.
-/

namespace PgSteward

namespace Cluster

open ProvisionStep

variable {strict : Bool} {c : Catalog} {admin : String} {target : DatabaseTarget}
  {m r d : Identifier} {es : List Identifier} {steps : List ProvisionStep}

/-- Steps that are possible whatever the catalog holds can all be taken. -/
theorem passes_of_possible (h : ∀ step ∈ steps, ∀ c, step.Possible strict c) :
    Passes strict c steps := by
  induction steps generalizing c with
  | nil => trivial
  | cons step rest ih =>
      exact ⟨h step (List.mem_cons_self ..) c,
        ih fun other hother => h other (List.mem_cons_of_mem _ hother)⟩

/-- Without circles all steps to a database can be taken. -/
theorem passes_allSteps (hr : r.name = target.user)
    (hprevious : ∀ owner, previousOwner? c admin m.name target = some owner →
      isName owner = true) :
    Passes false c (allSteps c admin target m r d es) := by
  refine passes_of_possible fun step hstep c' => ?_
  have hmember : ∀ {role : String}, isName role = true → role ≠ r.name →
      (ProvisionStep.member role r.name).Possible false c' := fun hname hne =>
    ⟨hname, .inr fun hcircle => hcircle.elim hne fun h => Bool.false_ne_true h.1⟩
  cases mem_allSteps_iff.mp hstep with
  | join hne => exact hmember m.isName (Ne.symm hne)
  | previous howner =>
      have hne := (previousOwner?_eq_some_iff.mp howner).2.2.1
      exact hmember (hprevious _ howner) (hr ▸ hne)
  | _ => trivial

/-- What may be added has been, once all steps have been done. -/
theorem has_of_mayAdd {entry : CatalogEntry} (hr : r.name = target.user)
    (hm : m.name ≠ "ON") (hu : target.user ≠ "ON")
    {c' : Catalog} (hdone : ∀ step ∈ allSteps c admin target m r d es, step.Done false c')
    (hentry : MayAdd c admin m.name target (es.map (·.name)) entry) : c'.Has entry := by
  have hstep : ∀ {step}, StepTo c admin target m r d es step → step.Done false c' := fun h =>
    hdone _ (mem_allSteps_iff.mpr h)
  have hjoined : ∀ {role : String}, (ProvisionStep.member role r.name).Done false c' →
      role ≠ "ON" → role ∈ c'.rolesOf r.name := fun h hon => (h.2.resolve_left hon).2
  cases entry with
  | role name =>
      rcases hentry with rfl | rfl
      · exact hstep .manager
      · rw [← hr]
        exact hstep .login
  | membership role member =>
      rcases hentry with ⟨hne, ⟨rfl, rfl⟩ | ⟨rfl, rfl⟩⟩ | ⟨howner, hon, rfl⟩
      · rw [← hr] at hne ⊢
        exact hjoined (hstep (.join hne)) hm
      · rw [← hr] at hne hu ⊢
        rcases hstep (.joinBack hne) with hon | (hself | ⟨hstrict, -⟩) | hmember
        · exact absurd hon hu
        · exact absurd hself hne
        · cases hstrict
        · exact hmember
      · rw [← hr]
        exact hjoined (hstep (.previous howner)) hon
  | extension name =>
      obtain ⟨e, he, rfl⟩ := List.mem_map.mp hentry
      exact hstep (.extension he)

end Cluster

namespace ProvisionCall

open Cluster

variable {call : ProvisionCall} {s t : Cluster}

/-- The role that is to own the database. -/
def owner (call : ProvisionCall) : String :=
  if call.target.shared then call.managerRole else call.target.user

/-- What a call is to make of a catalog. -/
structure Built (call : ProvisionCall) (before after : Catalog) : Prop where
  /-- The manager role and the login role are there. -/
  roles : ∀ name, name ∈ after.roles ↔
    name ∈ before.roles ∨ name = call.managerRole ∨ name = call.target.user
  /-- They are members of each other, and the login role is a member of the previous owner. -/
  memberships : ∀ role member, role ∈ after.rolesOf member ↔ role ∈ before.rolesOf member ∨
    Joins before call.admin.user call.managerRole call.target role member
  /-- The database belongs to its owner. -/
  databases : ∀ name, after.databases[name]? =
    if name = call.target.name then some call.owner else before.databases[name]?
  /-- The schema belongs to the role that it belonged to, or else to the login role. -/
  schemas : ∀ database name, after.schemaOwner? database name =
    if database = call.target.name ∧ name = call.target.name then
      some ((before.schemaOwner? database name).getD call.target.user)
    else before.schemaOwner? database name
  /-- The extensions are installed. -/
  extensions : ∀ name, name ∈ after.extensions ↔
    name ∈ before.extensions ∨ name ∈ call.extensions

/-- Whether a server reads the names of a call as they are meant, and no roles out of the
password. -/
structure Reads (call : ProvisionCall) (c : Catalog) : Prop where
  manager : isName call.managerRole = true ∧ call.managerRole ≠ "ON"
  user : isName call.target.user = true ∧ call.target.user ≠ "ON"
  name : isName call.target.name = true
  extensions : ∀ e ∈ call.extensions, isName e = true
  previous : ∀ owner, previousOwner? c call.admin.user call.managerRole call.target = some owner →
    isName owner = true
  password : Text.occursIn Command.inRoleMark call.target.password.toList = false

/-- The steps of a call build what they are to build. -/
theorem built_after {c : Catalog} {m r d : Identifier} {es : List Identifier}
    (hm : m.name = call.managerRole) (hr : r.name = call.target.user)
    (hd : d.name = call.target.name) (hes : call.extensions = es.map (·.name))
    (hreads : call.Reads c) : call.Built c
      (ProvisionStep.after false c (allSteps c call.admin.user call.target m r d es)) := by
  set c' := ProvisionStep.after false c (allSteps c call.admin.user call.target m r d es) with hc'
  have hpasses : ProvisionStep.Passes false c
      (allSteps c call.admin.user call.target m r d es) :=
    passes_allSteps hr (hm ▸ hreads.previous)
  have hdone : ∀ step ∈ allSteps c call.admin.user call.target m r d es, step.Done false c' :=
    ProvisionStep.done_after allSteps_pairwise hpasses
  have hentries : ∀ entry : CatalogEntry, c'.Has entry ↔ c.Has entry ∨
      MayAdd c call.admin.user call.managerRole call.target call.extensions entry := by
    intro entry
    rw [← hm, hes]
    constructor
    · exact mayAdd_of_leftBy hr hreads.password
        ⟨_, [], (List.append_nil _).symm, hpasses, rfl⟩
    · rintro (hbefore | hadded)
      · exact (ProvisionStep.grows_after _).has hbefore
      · exact has_of_mayAdd hr (hm ▸ hreads.manager.2) hreads.user.2 hdone hadded
  exact
    { roles := fun name => hentries (.role name)
      memberships := fun role member => hentries (.membership role member)
      databases := fun name => by
        by_cases hname : name = call.target.name
        · have howner := hdone _ (mem_allSteps_iff.mpr .owner)
          rw [if_pos hname, hname, ← hd, owner, ← hm, ← hr]
          exact howner
        · rw [if_neg hname]
          refine ProvisionStep.getElem?_databases_after fun step hstep habout => ?_
          cases mem_allSteps_iff.mp hstep with
          | database => exact hname (habout.symm.trans hd)
          | owner => exact hname (habout.symm.trans hd)
          | _ => exact habout
      schemas := fun database name => by
        have hschema : ProvisionStep.schema d.name d.name r.name ∈
            allSteps c call.admin.user call.target m r d es := mem_allSteps_iff.mpr .schema
        rw [hc', ProvisionStep.schemaOwner?_after (d := d.name) (n := d.name) (o := r.name)
          fun step hstep d' n' o' heq => by
            subst heq
            cases mem_allSteps_iff.mp hstep
            rfl]
        rw [hd, hr] at hschema ⊢
        simp only [hschema, and_true]
        split
        next h => rw [h.1, h.2]
        next => rfl
      extensions := fun name => hentries (.extension name) }

theorem exists_identifiers {names : List String} (h : ∀ name ∈ names, isName name = true) :
    ∃ is : List Identifier, names = is.map (·.name) :=
  ⟨names.pmap Identifier.mk h, by simp [List.map_pmap]⟩

/-- A call whose names are read as they are meant succeeds on a server without failing statements
that knows no circles.  It builds what it is to build, changes nothing else, and takes every right
from the public once the schema is there. -/
theorem run_builds (call : ProvisionCall) (s : Cluster) (hs : s.failures = [])
    (hstrict : s.strict = false) (hreads : call.Reads s.catalog) :
    ∃ t, call.run Cluster.server s = .ok () t ∧ call.Built s.catalog t.catalog ∧
      call.RecordsRights s t := by
  obtain ⟨es, hes⟩ := exists_identifiers hreads.extensions
  obtain ⟨m, hm⟩ : ∃ m : Identifier, m.name = call.managerRole := ⟨⟨_, hreads.manager.1⟩, rfl⟩
  obtain ⟨r, hr⟩ : ∃ r : Identifier, r.name = call.target.user := ⟨⟨_, hreads.user.1⟩, rfl⟩
  obtain ⟨d, hd⟩ : ∃ d : Identifier, d.name = call.target.name := ⟨⟨_, hreads.name⟩, rfl⟩
  obtain ⟨hsucceeds, hcatalog⟩ :=
    (follows_run_of_no_failures hs hm hr hd hes).finish (spares_of_no_failures hs)
  rw [hstrict] at hsucceeds hcatalog
  have hpasses : ProvisionStep.Passes false s.catalog
      (allSteps s.catalog call.admin.user call.target m r d es) :=
    passes_allSteps hr (hm ▸ hreads.previous)
  have hrun := Program.ok_of_succeeds (hsucceeds.mpr hpasses)
  refine ⟨_, hrun, ?_, recordsRights_of_ok hrun⟩
  rw [hcatalog, ProvisionStep.finish_of_passes hpasses]
  exact built_after hm hr hd hes hreads

/-- The orders of another role are shared. -/
theorem ordersCall_builds :
    legacyCluster.failures = [] ∧ legacyCluster.strict = false ∧
      ordersCall.Reads legacyCluster.catalog ∧
      ∃ t, ordersCall.run Cluster.server legacyCluster = .ok () t ∧
        ordersCall.Built legacyCluster.catalog t.catalog ∧
        ordersCall.RecordsRights legacyCluster t := by
  have hreads : ordersCall.Reads legacyCluster.catalog := {
    manager := by decide +kernel
    user := by decide +kernel
    name := by decide +kernel
    extensions := by decide +kernel
    previous := by
      have hlegacy : previousOwner? legacyCluster.catalog ordersCall.admin.user
          ordersCall.managerRole ordersCall.target = some "legacy" := by decide +kernel
      intro owner howner
      cases hlegacy.symm.trans howner
      decide +kernel
    password := by decide +kernel }
  exact ⟨rfl, rfl, hreads, run_builds ordersCall legacyCluster rfl rfl hreads⟩

end ProvisionCall

end PgSteward
