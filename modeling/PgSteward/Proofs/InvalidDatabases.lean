import PgSteward.Proofs.AdminRole
import PgSteward.Proofs.ProvisionBuild
import PgSteward.Proofs.RepeatedSync

/-!
# Databases that are judged invalid

A resource that is judged invalid waits for a change, so nobody comes back for what an attempt at it
has left on a server.  To look up what the resource names costs no statement, and all names of a
call are checked before the first connection.  But the previous owner of a shared database is read
from the server, and its name is checked when the database has been given away already
(`stuck_at_name_iff`).

`database_leftAlone_iff` says that this is the only name that comes too late.
-/

namespace PgSteward

/-- A failure on a database server is judged invalid, or the server is to blame. -/
theorem Error.sqlKind_eq_invalid_or_operational (e : SqlError) :
    Error.sqlKind e = .invalid ∨ Error.sqlKind e = .operational := by
  cases e with
  | unsafeName | invalidHost => exact .inl rfl
  | database | driver => exact .inr rfl

namespace Cluster

open ProvisionStep

variable {strict : Bool} {c : Catalog} {admin : String} {target : DatabaseTarget}
  {m r d : Identifier} {es : List Identifier} {steps others done more : List ProvisionStep}
  {step : ProvisionStep} {e : SqlError}

/-- A step that is impossible is one of the first steps, or of the others after all of these. -/
theorem split_of_not_possible (hsteps : steps ++ others = done ++ step :: more)
    (hpasses : Passes strict c done) (hstep : ¬step.Possible strict (after strict c done)) :
    (step ∈ steps ∧ ¬Passes strict c steps) ∨ (step ∈ others ∧ Passes strict c steps) := by
  rcases List.append_eq_append_iff.mp hsteps with ⟨x, rfl, rfl⟩ | ⟨x, rfl, hmore⟩
  · exact .inr ⟨by simp, (passes_append_iff.mp hpasses).1⟩
  · cases x with
    | nil =>
        rw [List.nil_append] at hmore
        rw [← hmore, List.append_nil]
        exact .inr ⟨List.mem_cons_self .., hpasses⟩
    | cons first rest =>
        obtain ⟨rfl, -⟩ := List.cons.inj hmore
        exact .inl ⟨by simp, fun h => hstep (passes_append_iff.mp h).2.1⟩

/-- Up to the owner only the manager role is joined. -/
theorem eq_manager_of_mem_headSteps {role member : String}
    (h : .member role member ∈ headSteps admin target m r d) : role = m.name := by
  unfold headSteps roleSteps loginSteps joinSteps at h
  by_cases hself : r.name = m.name
  · simp [hself] at h
  · have hmember : role = m.name ∧ member = r.name := by simpa [hself] using h
    exact hmember.1

/-- A new role changes the memberships of no other role, and none if it is a member of nothing. -/
theorem rolesOf_withRole {name other : String} {roles : List String}
    (h : other = name → roles = []) : (c.withRole name roles).rolesOf other = c.rolesOf other := by
  rw [Catalog.withRole]
  split
  next => rfl
  next =>
    ext role
    rw [Catalog.mem_rolesOf_addRole, or_iff_left_iff_imp]
    rintro ⟨hname, hrole⟩
    rw [h hname] at hrole
    cases hrole

/-- Up to the owner a server stops at most at the membership in the manager role, when this is a
member of the login role already. -/
theorem passes_headSteps_iff :
    Passes strict c (headSteps admin target m r d) ↔
      r.name = m.name ∨ m.name = "ON" ∨ ¬(strict = true ∧ r.name ∈ c.rolesOf m.name) := by
  by_cases hself : r.name = m.name
  · simp [headSteps, roleSteps, loginSteps, joinSteps, Passes, Possible, hself]
  · have hroles : ∀ roles : List String,
        ((c.withRole m.name []).withRole r.name roles).rolesOf m.name = c.rolesOf m.name := by
      intro roles
      rw [rolesOf_withRole fun h => absurd h.symm hself, rolesOf_withRole fun _ => rfl]
    simp [headSteps, roleSteps, loginSteps, joinSteps, Passes, Possible, ProvisionStep.effect,
      Catalog.GoesInCircle, hself, Ne.symm hself, m.isName, hroles]

/-- A server that is stuck is stuck at a name exactly when it has given the database away and the
name is that of the previous owner. -/
theorem stuck_at_name_iff (hsteps : allSteps c admin target m r d es = done ++ step :: more)
    (hpasses : Passes strict c done) (hstuck : step.Stuck strict (after strict c done) e) :
    Error.sqlKind e ≠ .operational ↔ Passes strict c (headSteps admin target m r d) ∧
      ∃ owner, previousOwner? c admin m.name target = some owner ∧ isName owner = false := by
  rcases split_of_not_possible hsteps hpasses hstuck.not_possible with
    ⟨hmem, hhead⟩ | ⟨hmem, hhead⟩
  · -- On the way to the owner only the manager role is joined, whose name is fine.
    refine iff_of_false ?_ fun h => hhead h.1
    cases hstuck with
    | unsafeName hbad =>
        rw [eq_manager_of_mem_headSteps hmem, m.isName] at hbad
        cases hbad
    | circle => exact fun h => h rfl
  · -- After the owner the previous owner is all that a server can be stuck at.
    rw [and_iff_right hhead]
    rcases List.mem_append.mp hmem with hmem | hmem
    · obtain ⟨owner, howner, rfl⟩ := Option.map_eq_some_iff.mp (Option.mem_toList.mp hmem)
      cases hstuck with
      | unsafeName hbad => exact iff_of_true nofun ⟨owner, howner, hbad⟩
      | circle hname =>
          refine iff_of_false (fun h => h rfl) ?_
          rintro ⟨other, hother, hbad⟩
          cases howner.symm.trans hother
          exact Bool.false_ne_true (hbad.symm.trans hname)
    · rcases List.mem_cons.mp hmem with rfl | hmem
      · cases hstuck
      · obtain ⟨i, -, rfl⟩ := List.mem_map.mp hmem
        cases hstuck

/-- When the steps up to the owner can be taken, the database has been given away in the end. -/
theorem given_of_headSteps (hshared : target.shared = true)
    (hhead : Passes strict c (headSteps admin target m r d))
    (hall : ¬Passes strict c (allSteps c admin target m r d es)) :
    (finish strict c (allSteps c admin target m r d es)).databases[d.name]? = some m.name := by
  have hpairwise : (allSteps c admin target m r d es).Pairwise MayPrecede := allSteps_pairwise
  have howner : ProvisionStep.owner d.name m.name ∈ headSteps admin target m r d := by
    simp [headSteps, hshared]
  rw [finish_allSteps_of_not_passes hall, finish_of_passes hhead]
  exact done_after (List.pairwise_append.mp hpairwise).1 hhead _ howner

end Cluster

namespace ProvisionCall

open Cluster

variable {call : ProvisionCall} {s t : Cluster} {e : SqlError}

/-- Whether all names of a call may stand in statements. -/
structure HasNames (call : ProvisionCall) : Prop where
  manager : isName call.managerRole = true
  user : isName call.target.user = true
  name : isName call.target.name = true
  extensions : ∀ e ∈ call.extensions, isName e = true

/-- Whether a call gives a shared database away and then stops at the name of the previous owner,
which may not stand in a statement. -/
structure LosesOwner (call : ProvisionCall) (s : Cluster) : Prop where
  names : call.HasNames
  /-- The login role can join the manager role. -/
  joins : call.target.user = call.managerRole ∨ call.managerRole = "ON" ∨
    ¬(s.strict = true ∧ call.target.user ∈ s.catalog.rolesOf call.managerRole)
  owner : ∃ owner, previousOwner? s.catalog call.admin.user call.managerRole call.target =
    some owner ∧ isName owner = false

/-- The names of a call are identifiers. -/
theorem hasNames_iff : call.HasNames ↔ ∃ (m r d : Identifier) (es : List Identifier),
    m.name = call.managerRole ∧ r.name = call.target.user ∧ d.name = call.target.name ∧
      call.extensions = es.map (·.name) := by
  constructor
  · intro h
    obtain ⟨es, hes⟩ := exists_identifiers h.extensions
    exact ⟨⟨_, h.manager⟩, ⟨_, h.user⟩, ⟨_, h.name⟩, es, rfl, rfl, rfl, hes⟩
  · rintro ⟨m, r, d, es, hm, hr, hd, hes⟩
    refine ⟨hm ▸ m.isName, hr ▸ r.isName, hd ▸ d.isName, fun name hname => ?_⟩
    rw [hes] at hname
    obtain ⟨i, -, rfl⟩ := List.mem_map.mp hname
    exact i.isName

/-- Without names of its own a call fails at once. -/
theorem untouched_of_not_hasNames (hnames : ¬call.HasNames)
    (h : call.run Cluster.server s = .error e t) : t = s := by
  rcases names_or_error call Cluster.server s with hidentifiers | ⟨e', herror⟩
  · exact absurd (hasNames_iff.mpr hidentifiers) hnames
  · cases herror.symm.trans h
    rfl

/-- With names of its own a call is judged invalid exactly when it loses the previous owner. -/
theorem losesOwner_iff_of_error (hs : s.failures = []) (hnames : call.HasNames)
    (h : call.run Cluster.server s = .error e t) :
    Error.sqlKind e ≠ .operational ↔ call.LosesOwner s := by
  obtain ⟨m, r, d, es, hm, hr, hd, hes⟩ := hasNames_iff.mp hnames
  obtain ⟨-, done, rest, hsteps, hpasses, hcatalog, hstuck⟩ :=
    (follows_run_of_no_failures hs hm hr hd hes).error e t h
  obtain ⟨step, more, rfl, hstep⟩ := hstuck (spares_of_no_failures hs)
  rw [hcatalog] at hstep
  rw [stuck_at_name_iff hsteps hpasses hstep, passes_headSteps_iff, hm, hr]
  exact ⟨fun h => ⟨hnames, h.1, h.2⟩, fun h => ⟨h.joins, h.owner⟩⟩

/-- A call that loses the previous owner fails when the database has been given away. -/
theorem error_of_losesOwner (hs : s.failures = []) (h : call.LosesOwner s) :
    ∃ e t, call.run Cluster.server s = .error e t ∧ t.catalog ≠ s.catalog := by
  obtain ⟨m, r, d, es, hm, hr, hd, hes⟩ := hasNames_iff.mp h.names
  obtain ⟨owner, howner, hbad⟩ := h.owner
  obtain ⟨hshared, hown, -, hother⟩ := previousOwner?_eq_some_iff.mp howner
  rw [← hm] at howner hother
  obtain ⟨hsucceeds, hcatalog⟩ :=
    (follows_run_of_no_failures hs hm hr hd hes).finish (spares_of_no_failures hs)
  have hhead : ProvisionStep.Passes s.strict s.catalog
      (headSteps call.admin.user call.target m r d) := by
    rw [passes_headSteps_iff, hm, hr]
    exact h.joins
  have hall : ¬ProvisionStep.Passes s.strict s.catalog
      (allSteps s.catalog call.admin.user call.target m r d es) := fun hall => by
    have hdone := ProvisionStep.done_after allSteps_pairwise hall _
      (mem_allSteps_iff.mpr (.previous howner))
    exact Bool.false_ne_true (hbad.symm.trans hdone.1)
  have hgiven := given_of_headSteps hshared hhead hall
  obtain ⟨e, hrun⟩ := Program.error_of_not_succeeds
    (Bool.eq_false_iff.mpr fun h => hall (hsucceeds.mp h))
  refine ⟨e, _, hrun, fun hsame => hother ?_⟩
  rw [← hcatalog, hsame, hd] at hgiven
  rw [← hown, Std.ExtTreeMap.getD_eq_getD_getElem?, hgiven, Option.getD_some]

end ProvisionCall

/-! ## Resources -/

namespace Services

variable {σ τ : Type}

/-- The call that makes the database of a resource. -/
def databaseCall (s : Services σ) (space : String) (spec : DatabaseSpec) :
    Program σ Error ProvisionCall := do
  if spec.name.isEmpty then throw (.invalid "name is required")
  let (host, admin) ← s.selector.select space spec.host spec.hostCredentials
  let user ← s.ownerName space spec
  let password ← s.require space "password" spec.password
  return {
    managerRole := s.managerRole, adminDatabase := s.adminDatabase, host, admin
    target := { name := spec.name, user, password, params := admin.params, shared := spec.isShared }
    extensions := spec.extensions.map (·.name) }

/-- The database of a resource is made by its call. -/
theorem provideDatabase_eq (s : Services Cluster) (space : String) (spec : DatabaseSpec) :
    s.provideDatabase space spec = (do
      let call ← s.databaseCall space spec
      Program.mapError Error.sql (call.run s.server)
      return { host := call.host, user := call.target.user }) := by
  unfold provideDatabase databaseCall
  split
  · rfl
  · simp only [bind_assoc, pure_bind]
    rfl

/-- The call of a resource is found by look-ups alone. -/
theorem keeps_databaseCall {s : Services σ} {view : σ → τ}
    (h : ∀ v, s.selector.Related (fun s t => s = t ∧ view s = v) s.selector)
    (space : String) (spec : DatabaseSpec) : Program.Keeps view (s.databaseCall space spec) := by
  have hselect : Program.Keeps view
      (s.selector.select space spec.host spec.hostCredentials) :=
    Program.keeps_iff.mpr fun v => (h v).select
  have howner : Program.Keeps view (s.ownerName space spec) :=
    Program.keeps_iff.mpr fun v => related_ownerName (h v) space spec
  have hrequire : Program.Keeps view (s.require space "password" spec.password) :=
    Program.keeps_iff.mpr fun v => related_require (h v) space "password" spec.password
  unfold databaseCall
  split
  · exact Program.keeps_throw _
  · exact Program.keeps_bind hselect fun _ => Program.keeps_bind howner fun _ =>
      Program.keeps_bind hrequire fun _ => Program.keeps_pure _

/-- An attempt fails in its look-ups or in the call that they have come to. -/
theorem provideDatabase_eq_error_iff {s : Services Cluster} {space : String} {spec : DatabaseSpec}
    {c t : Cluster} {e : Error} :
    s.provideDatabase space spec c = .error e t ↔ s.databaseCall space spec c = .error e t ∨
      ∃ call u e', s.databaseCall space spec c = .ok call u ∧
        call.run s.server u = .error e' t ∧ e = .sql e' := by
  rw [provideDatabase_eq, Program.bind_eq_error_iff]
  refine or_congr Iff.rfl (exists_congr fun call => exists_congr fun u => ?_)
  rw [exists_and_left, and_congr_right_iff]
  intro _
  rw [← Program.mapError_eq_error_iff, Program.bind_eq_error_iff, or_iff_left_iff_imp]
  rintro ⟨_, _, -, hpure⟩
  cases hpure

/-- Whether an attempt that fails for a reason of a kind runs no statement and changes nothing. -/
def LeavesAlone {α : Type} (kind : ErrorKind) (p : Program Cluster Error α) (s : Cluster) : Prop :=
  ∀ e t, p s = .error e t → e.kind = kind → t.log = s.log ∧ t.catalog = s.catalog

section Judged

variable {settings : Settings} {l : Lookups} {now : Instant} {space : String} {spec : DatabaseSpec}
  {s t : Cluster} {e : Error}

theorem keeps_databaseCall_of_lookups : Program.Keeps id
    ((settings.services l.surroundings now).databaseCall space spec) :=
  keeps_databaseCall (fun _ => ⟨rfl, fun _ _ => Program.related_ofExcept _,
    fun _ _ _ => Program.related_ofExcept _⟩) space spec

/-- An attempt that no server is to blame for leaves everything as it is, or it is judged invalid
since its call loses the previous owner. -/
theorem untouched_or_losesOwner (hs : s.failures = [])
    (h : (settings.services l.surroundings now).provideDatabase space spec s = .error e t)
    (hkind : e.kind ≠ .operational) :
    t = s ∨ (e.kind = .invalid ∧
      ∃ call, (settings.services l.surroundings now).databaseCall space spec s = .ok call s ∧
        call.LosesOwner s) := by
  rcases provideDatabase_eq_error_iff.mp h with hlookup | ⟨call, u, e, hcall, hrun, rfl⟩
  · exact .inl (keeps_databaseCall_of_lookups.of_error hlookup)
  · obtain rfl : u = s := keeps_databaseCall_of_lookups.of_ok hcall
    by_cases hnames : call.HasNames
    · have hloses := (ProvisionCall.losesOwner_iff_of_error hs hnames hrun).mp hkind
      refine .inr ⟨?_, call, hcall, hloses⟩
      exact (Error.sqlKind_eq_invalid_or_operational e).resolve_right hkind
    · exact .inl (ProvisionCall.untouched_of_not_hasNames hnames hrun)

end Judged

/-- An attempt that is judged invalid or waits for something leaves the server alone, whatever a
cluster without failing statements holds, whatever is looked up and under all settings.  The only
exception is an attempt that is judged invalid since the call of the resource loses the previous
owner. -/
theorem database_leftAlone_iff (settings : Settings) (l : Lookups) (now : Instant)
    (space : String) (spec : DatabaseSpec) (s : Cluster) (hs : s.failures = []) :
    LeavesAlone .transient
      ((settings.services l.surroundings now).provideDatabase space spec) s ∧
    (LeavesAlone .invalid ((settings.services l.surroundings now).provideDatabase space spec) s ↔
      ∀ call, (settings.services l.surroundings now).databaseCall space spec s = .ok call s →
        ¬call.LosesOwner s) := by
  refine ⟨fun e t herror hkind => ?_, fun hleft call hcall hloses => ?_,
    fun hfree e t herror hkind => ?_⟩
  · rcases untouched_or_losesOwner hs herror (by rw [hkind]; nofun) with rfl | ⟨hinvalid, -⟩
    · exact ⟨rfl, rfl⟩
    · cases hkind.symm.trans hinvalid
  · obtain ⟨e, t, hrun, hchanged⟩ := ProvisionCall.error_of_losesOwner hs hloses
    have hkind := (ProvisionCall.losesOwner_iff_of_error hs hloses.names hrun).mpr hloses
    have herror := provideDatabase_eq_error_iff.mpr (.inr ⟨call, s, e, hcall, hrun, rfl⟩)
    exact hchanged (hleft _ t herror
      ((Error.sqlKind_eq_invalid_or_operational e).resolve_right hkind)).2
  · rcases untouched_or_losesOwner hs herror (by rw [hkind]; nofun) with
      rfl | ⟨-, call, hcall, hloses⟩
    · exact ⟨rfl, rfl⟩
    · exact absurd hloses (hfree call hcall)

/-! ## A previous owner with a dash -/

/-- Shared orders. -/
def sharedOrders : DatabaseSpec where
  name := "orders"
  password := some (.inline "secret")
  isShared := true
  host := some (.inline "db:5432")

/-- Shared orders with an extension whose name has a dash. -/
def extendedOrders : DatabaseSpec := { sharedOrders with extensions := [{ name := "uuid-ossp" }] }

/-- A cluster with orders whose owner has a name with a dash. -/
def dashedCluster : Cluster where
  catalog := { databases := NameMap.ofPairs [("orders", "legacy-owner")] }

/-- The services of an operator for one host. -/
def shopServices : Services Cluster :=
  Settings.services { logins := oneHost, managerRole := "manager" } Lookups.shopLookups.surroundings
    writeCall.now

/-- The extension is found to be invalid in time. -/
theorem extendedOrders_leftAlone :
    dashedCluster.failures = [] ∧
      ∃ e t, shopServices.provideDatabase "shop" extendedOrders dashedCluster = .error e t ∧
        e.kind = .invalid ∧ t.log = dashedCluster.log ∧ t.catalog = dashedCluster.catalog := by
  obtain ⟨e, hrun⟩ := Program.error_of_not_succeeds
    (p := shopServices.provideDatabase "shop" extendedOrders) (s := dashedCluster)
    (by decide +kernel)
  have hkind : ((shopServices.provideDatabase "shop" extendedOrders).outcome
      dashedCluster).1.mapError Error.kind = .error .invalid := by decide +kernel
  have hextensions : (((shopServices.databaseCall "shop" extendedOrders).outcome
      dashedCluster).1.map (·.extensions)).toOption = some ["uuid-ossp"] := by decide +kernel
  rw [Program.outcome, hrun] at hkind
  refine ⟨rfl, e, _, hrun, Except.error.inj hkind, ?_⟩
  refine (database_leftAlone_iff { logins := oneHost, managerRole := "manager" }
    Lookups.shopLookups writeCall.now "shop" extendedOrders dashedCluster rfl).2.mpr
    (fun call hcall hloses => ?_) e _ hrun (Except.error.inj hkind)
  rw [Program.outcome, show shopServices.databaseCall "shop" extendedOrders dashedCluster = _
    from hcall] at hextensions
  have hname := hloses.names.extensions "uuid-ossp"
    (by rw [show call.extensions = _ from Option.some.inj hextensions]; simp)
  exact absurd hname (by decide)

/-- The previous owner is found to be invalid when the database has been given away.  The same
resource succeeds at the next attempt. -/
theorem sharedOrders_not_leftAlone :
    dashedCluster.failures = [] ∧
      ∃ e t, shopServices.provideDatabase "shop" sharedOrders dashedCluster = .error e t ∧
        e.kind = .invalid ∧ e.action = .awaitChange ∧ t.log ≠ dashedCluster.log ∧
        t.catalog ≠ dashedCluster.catalog ∧
        (shopServices.provideDatabase "shop" sharedOrders).succeeds t = true := by
  obtain ⟨e, hrun⟩ := Program.error_of_not_succeeds
    (p := shopServices.provideDatabase "shop" sharedOrders) (s := dashedCluster)
    (by decide +kernel)
  have hkind : ((shopServices.provideDatabase "shop" sharedOrders).outcome
      dashedCluster).1.mapError Error.kind = .error .invalid := by decide +kernel
  rw [Program.outcome, hrun] at hkind
  have hinvalid : e.kind = .invalid := Except.error.inj hkind
  exact ⟨rfl, e, _, hrun, hinvalid, by rw [Error.action, hinvalid], by decide +kernel,
    by decide +kernel, by decide +kernel⟩

end Services

end PgSteward
