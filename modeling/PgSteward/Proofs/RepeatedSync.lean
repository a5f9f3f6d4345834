import PgSteward.Proofs.LostLookups
import PgSteward.Proofs.ShardSeats
import PgSteward.Proofs.UserEvents

/-!
# A user that is brought about twice

Once a user has been brought about, to bring it about again finds nothing to do.  Its login role
holds the roles that its plan needs, so there are none to give or to take away
(`RoleChange.of_eq_nothing`), and its statement is the only one in the shard (`ensure_holdsOnly`).
The second time only one statement is run, and only if there is an access: the one that creates the
login role, which is refused since the role is there.
-/

namespace PgSteward

open Program

/-! ## Roles that are there -/

theorem Statement.text_createLogin (i : Identifier) :
    (Statement.createRole i true none []).text = s!"CREATE ROLE {i.name} WITH LOGIN" := by
  rw [← String.toList_inj]
  unfold text passwordText rolesText
  simp [toString]

namespace Cluster

variable {session : Session} {s t : Cluster} {i : Identifier} {isLogin : Bool}

/-- A role that is there is there after any statement. -/
theorem related_of_role (name : String) :
    server.Related (fun s t => s = t ∧ name ∈ s.catalog.roles) (fun _ => True) server := by
  refine (related_preserving fun _ _ hs => hs).imp fun st _ session s hs => ?_
  obtain ⟨e, c, hafter, hc⟩ := outcome_run_server session st s
  rw [hafter]
  show name ∈ c.roles
  rcases hc with rfl | rfl
  · exact hs
  · exact s.catalog.mem_roles_run hs session.user session.database s.strict _

theorem refusal?_of_no_failures (h : s.failures = []) (statement : String) :
    s.refusal? statement = none := by
  simp [refusal?, h]

/-- After a role has been created, or was not since it was there, it is there. -/
theorem create_role_ok (hfailures : s.failures = []) {isNew : Bool}
    (h : server.create session (.createRole i isLogin none []) s = .ok isNew t) :
    i.name ∈ t.catalog.roles := by
  rw [server_eq_refusing] at h
  cases hrun : (refusing refusal?).run session (.createRole i isLogin none []) s with
  | ok u t' =>
      cases (create_of_ok hrun).symm.trans h
      obtain ⟨-, c, hc, rfl⟩ := run_eq_ok_iff.mp hrun
      rw [effectOf, Statement.read_createRole, Catalog.run_createRole] at hc
      split at hc
      next => cases hc
      next =>
        cases hc
        show i.name ∈ (s.catalog.addRole _ _).roles
        rw [Catalog.roles_addRole]
        simp
  | error e t' =>
      rw [create_of_error hrun] at h
      split at h
      next =>
        cases h
        rcases run_eq_error_iff.mp hrun with ⟨code, hcode, -⟩ | ⟨-, c, hc, rfl⟩
        · rw [refusal?_of_no_failures hfailures] at hcode
          cases hcode
        · rw [effectOf, Statement.read_createRole, Catalog.run_createRole] at hc
          split at hc
          next hthere =>
            cases hc
            exact hthere
          next => cases hc
      next => cases h

/-- A role that is there is not created. -/
theorem create_role_of_mem (hfailures : s.failures = []) (h : i.name ∈ s.catalog.roles) :
    server.create session (.createRole i isLogin none []) s =
      .ok false (s.recorded session (Statement.createRole i isLogin none []).text
        (some (Catalog.alreadyThere "42710" "role" i.name)) s.catalog) := by
  have hrun : server.run session (.createRole i isLogin none []) s =
      .error (Catalog.alreadyThere "42710" "role" i.name)
        (s.recorded session (Statement.createRole i isLogin none []).text
          (some (Catalog.alreadyThere "42710" "role" i.name)) s.catalog) := by
    rw [server_eq_refusing, run_eq_error_iff]
    refine .inr ⟨refusal?_of_no_failures hfailures _, s.catalog, ?_, rfl⟩
    rw [effectOf, Statement.read_createRole, Catalog.run_createRole, if_pos h]
  rw [create_of_error hrun]
  rfl

end Cluster

/-! ## Roles that are as they should be -/

/-- No role is to be given or taken away when those that are needed are there and no other managed
ones. -/
theorem RoleChange.of_eq_nothing {existing : NameSet} {required : RequiredRoles}
    (hneeded : ∀ role, role ∈ required → role ∈ existing)
    (hmanaged : ∀ role, role ∈ existing → isManagedRole role = true → role ∈ required) :
    RoleChange.of existing.toList required = {} := by
  have hadd : (RoleChange.of existing.toList required).add = [] := by
    rw [List.eq_nil_iff_forall_not_mem]
    intro role hrole
    obtain ⟨hrequired, hnot⟩ := RoleChange.mem_add_iff.mp hrole
    exact hnot (hneeded role hrequired)
  have hremove : (RoleChange.of existing.toList required).remove = [] := by
    rw [List.eq_nil_iff_forall_not_mem]
    intro role hrole
    obtain ⟨hheld, hmanages, hnot⟩ := RoleChange.mem_remove_iff.mp hrole
    exact hnot (hmanaged role hheld hmanages)
  cases hchange : RoleChange.of existing.toList required with
  | mk add remove =>
      rw [hchange] at hadd hremove
      rw [show add = [] from hadd, show remove = [] from hremove]

namespace Cluster

/-- What is recorded when a login role that is there should be created. -/
def loginThere (session : Session) (login : String) : PgSteward.Executed where
  session := session
  statement := s!"CREATE ROLE {login} WITH LOGIN"
  error := some (Catalog.alreadyThere "42710" "role" login)

/-- A cluster after a run that has found a login role with some accesses as it should be. -/
def revisited (target : ConnectionTarget) (login : String) (accesses : List PlannedAccess)
    (s : Cluster) : Cluster :=
  { s with
    log := s.log ++ if accesses.isEmpty then [] else [loginThere (.opened target) login]
    connections := s.connections ++ [target] }

end Cluster

namespace Converger

variable {c : Converger Cluster} {session : Session} {login host : String} {admin : AdminLogin}
  {accesses : List PlannedAccess} {s t : Cluster}

/-- A login role with accesses has been found out about when it is there. -/
theorem mem_roles_of_require (hc : c.server = Cluster.server) {required : RequiredRoles}
    (h : c.require session login accesses s = .ok required t) (hfailures : s.failures = [])
    (haccesses : accesses.isEmpty = false) :
    isName login = true ∧ login ∈ t.catalog.roles := by
  unfold require at h
  rw [haccesses, hc] at h
  obtain ⟨_, u, hrole, hend⟩ := bind_eq_ok_iff.mp h
  cases hend
  rw [Server.ensureRole_plain] at hrole
  obtain ⟨i, rfl, hcreate⟩ := Cluster.bind_name_eq_ok_iff.mp hrole
  obtain ⟨isNew, v, hcreated, hend⟩ := bind_eq_ok_iff.mp hcreate
  cases hend
  exact ⟨i.isName, Cluster.create_role_ok hfailures hcreated⟩

/-- To find out about a login role that is there changes nothing but the record. -/
theorem require_of_mem_roles (hc : c.server = Cluster.server) (hfailures : s.failures = [])
    (h : accesses.isEmpty = false → isName login = true ∧ login ∈ s.catalog.roles) :
    c.require session login accesses s = .ok (.onHost c.staticRoles accesses)
      { s with
        log := s.log ++ if accesses.isEmpty then [] else [Cluster.loginThere session login] } := by
  unfold require RequiredRoles.onHost
  cases haccesses : accesses.isEmpty with
  | true => simp [run_pure]
  | false =>
      obtain ⟨hname, hthere⟩ := h haccesses
      have hrole : Cluster.server.ensureRole session login true [] none s = .ok ()
          { s with log := s.log ++ [Cluster.loginThere session login] } := by
        rw [Server.ensureRole_plain]
        refine Cluster.bind_name_eq_ok_iff.mpr ⟨⟨login, hname⟩, rfl, ?_⟩
        rw [bind_of_ok (Cluster.create_role_of_mem hfailures hthere)]
        rw [Statement.text_createLogin]
        rfl
      rw [hc]
      exact (bind_of_ok hrole).trans rfl

/-- After a successful run a login role with accesses is there. -/
theorem mem_roles_of_convergeHost (hc : c.server = Cluster.server)
    (h : c.convergeHost login host accesses s = .ok () t) (hfailures : s.failures = [])
    (haccesses : accesses.isEmpty = false) :
    isName login = true ∧ login ∈ t.catalog.roles := by
  obtain ⟨admin, s₁, -, hrequire, hsteps⟩ :=
    (convergeHost_eq_ok_iff (hc.trans Cluster.server_eq_refusing)).mp h
  obtain ⟨hname, hthere⟩ := mem_roles_of_require hc hrequire hfailures haccesses
  have hkeeps : c.server.Related (fun s t => s = t ∧ login ∈ s.catalog.roles) (fun _ => True)
      c.server := by
    rw [hc]
    exact Cluster.related_of_role login
  obtain ⟨t', -, -, hafter⟩ := (related_sequence (related_steps
    (hkeeps.imp fun _ _ => trivial) _)).of_ok ⟨rfl, hthere⟩ hsteps
  exact ⟨hname, hafter⟩

/-- After a successful run there is no role to give or to take away. -/
theorem roleChange_of_convergeHost (hc : c.server = Cluster.server)
    (hstatic : "ON" ∉ c.staticRoles) (h : c.convergeHost login host accesses s = .ok () t) :
    RoleChange.of (t.catalog.rolesOf login).toList (.onHost c.staticRoles accesses) = {} := by
  have hroles : ∀ role, role ∈ t.catalog.rolesOf login ↔
      (role ∈ RequiredRoles.onHost c.staticRoles accesses ∧
        (role ≠ "ON" ∨ role ∈ s.catalog.rolesOf login)) ∨
      (role ∈ s.catalog.rolesOf login ∧ isManagedRole role = false) := by
    intro role
    rw [rolesOf_convergeHost (hc.trans Cluster.server_eq_refusing) h, if_pos rfl]
  refine RoleChange.of_eq_nothing (fun role hneeded => ?_) (fun role hheld hmanaged => ?_)
  · refine (hroles role).mpr (.inl ⟨hneeded, .inl ?_⟩)
    rintro rfl
    exact RequiredRoles.on_not_mem hstatic accesses hneeded
  · rcases (hroles role).mp hheld with ⟨hneeded, -⟩ | ⟨-, hplain⟩
    · exact hneeded
    · rw [hmanaged] at hplain
      cases hplain

/-- After a successful run another one finds everything as it should be. -/
theorem convergeHost_again (hc : c.server = Cluster.server) (hstatic : "ON" ∉ c.staticRoles)
    (hfailures : s.failures = []) (h : c.convergeHost login host accesses s = .ok () t) :
    ∃ admin, c.logins[host]? = some admin ∧ c.convergeHost login host accesses t =
      .ok () (t.revisited (.admin host c.adminDatabase admin) login accesses) := by
  have hc' := hc.trans Cluster.server_eq_refusing
  obtain ⟨admin, -, hlogin, -, -⟩ := (convergeHost_eq_ok_iff hc').mp h
  have hfailures' : t.failures = [] := by
    have hbesides : t.besides login = s.besides login :=
      (keeps_besides_convergeHost hc accesses).of_ok h
    rw [(Cluster.besides_eq_iff.mp hbesides).1, hfailures]
  have hthere := mem_roles_of_convergeHost hc h hfailures
  refine ⟨admin, hlogin, (convergeHost_eq_ok_iff hc').mpr ⟨admin, _, hlogin,
    require_of_mem_roles hc hfailures' hthere, ?_⟩⟩
  dsimp only
  rw [roleChange_of_convergeHost hc hstatic h]
  rfl

end Converger

/-! ## Users -/

/-- A call succeeds when its plan has no errors and the roles can be made to follow it. -/
theorem Granter.sync_of_ok {σ : Type} {g : Granter σ} {now : Instant} {space sanitized : String}
    {reads : List AccessIntent} {writes : List WriteIntent} {plan : Plan} {s s₁ t : σ}
    (hplan : (g.planner.plan now space reads writes : Program σ Error Plan) s = .ok plan s₁)
    (herrors : plan.errors = [])
    (hrun : g.converger.converge (g.loginRole sanitized) plan.access s₁ = .ok () t) :
    g.sync now space sanitized reads writes s = .ok () t := by
  unfold sync
  rw [bind_of_ok hplan, bind_of_ok (attempt_of_ok hrun), herrors]
  rfl

namespace Lookups

/-- After a successful call for a user, another one for the same intents finds everything as it
should be. -/
theorem sync_again (l : Lookups) {static : List String}
    {adminDatabase rolePrefix host space sanitized : String} {now now' : Instant}
    {reads : List AccessIntent} {writes : List WriteIntent} {s t : Cluster}
    (hsingle : l.logins.keys = [host]) (hstatic : "ON" ∉ static) (hfailures : s.failures = [])
    (hactive : ∀ intent ∈ Intent.ofUser reads writes,
      intent.access.isActive now' = intent.access.isActive now)
    (h : (l.granter static adminDatabase rolePrefix).sync now space sanitized reads writes s =
      .ok () t) :
    ∃ admin, l.logins[host]? = some admin ∧
      (l.granter static adminDatabase rolePrefix).sync now' space sanitized reads writes t =
        .ok () (t.revisited (.admin host adminDatabase admin) (rolePrefix ++ sanitized)
          (l.planned now space (Intent.ofUser reads writes))) := by
  let c := Converger.inMemory l.logins static adminDatabase
  let call : SyncCall := { granter := l.granter static adminDatabase rolePrefix, now, space,
                           sanitized, reads, writes }
  obtain ⟨plan, s₁, hplan, herrors, hrun⟩ := SyncCall.run_ok (show call.run s = .ok () t from h)
  obtain ⟨plan', hplan', hmem⟩ : ∃ plan', ((l.planner : Planner Cluster).plan now space reads writes
      : Program Cluster Error Plan) s = .ok plan' s ∧ ∀ a, a ∈ plan'.access.all ↔
        a ∈ l.planned now space (Intent.ofUser reads writes) := l.plan_ok ..
  cases hplan'.symm.trans hplan
  -- The plan is the same, since it depends neither on the cluster nor on the present.
  obtain ⟨u, hagain, hu⟩ := ((l.related_planner fun _ u => u = t).planFrom now {} none
    (Intent.ofUser reads writes)).of_ok rfl hplan
  rw [hu, ← Planner.planFrom_congr hactive] at hagain
  have hall := Converger.host_of_converge_ok Cluster.server_eq_refusing hsingle hrun
  have hhost : c.convergeHost (rolePrefix ++ sanitized) host plan.access.all s = .ok () t :=
    Converger.converge_single_ok Cluster.server_eq_refusing hsingle hrun
  obtain ⟨admin, hadmin, hsecond⟩ := Converger.convergeHost_again rfl hstatic hfailures hhost
  refine ⟨admin, hadmin, Granter.sync_of_ok hagain herrors ?_⟩
  rw [Cluster.revisited, ← isEmpty_congr hmem]
  exact (Converger.converge_single_eq_ok_iff hsingle hall).mpr hsecond

/-- What is looked up under some settings, which give the logins and what is allowed. -/
def under (l : Lookups) (settings : Settings) : Lookups :=
  { l with logins := settings.logins, flags := settings.flags }

/-- A cluster, and what is looked up. -/
def surroundings (l : Lookups) : Surroundings Cluster where
  server := Cluster.server
  resolver := l.selector.resolver
  hostCredentials := l.selector.credentials
  inventory := l.planner.inventory
  policies := .absent
  kube := { send := fun _ => throw .undecodable }

end Lookups

/-- To bring a user about twice changes nothing the second time.  Whatever a cluster and a
well-formed policy store hold, when a user has been brought about on a single host, to bring it about
again succeeds, leaves the catalog and the whole policy store as they are, and runs no statement but
the one that creates the login role, which is there; and this one only if there is a planned
access. -/
theorem Services.syncUser_again (settings : Settings) (l : Lookups) (host space : String)
    (spec : UserSpec) (now now' : Instant) (s t : Cluster) (m n : PolicyMemory)
    (hsingle : settings.logins.keys = [host]) (hstatic : "ON" ∉ settings.staticRoles)
    (hfailures : s.failures = []) (hm : m.WellFormed)
    (hactive : ∀ intent ∈ Intent.ofUser spec.read spec.write,
      intent.access.isActive now' = intent.access.isActive now)
    (hfirst : (settings.services l.surroundings.withPolicies now).syncUser space spec (s, m) =
      .ok () (t, n)) :
    ∃ admin t', settings.logins[host]? = some admin ∧
      (settings.services l.surroundings.withPolicies now').syncUser space spec (t, n) =
        .ok () (t', n) ∧
      t'.catalog = t.catalog ∧
      t'.log = t.log ++
        if ((l.under settings).planned now space (Intent.ofUser spec.read spec.write)).isEmpty
        then [] else [Cluster.loginThere (.opened (.admin host settings.adminDatabase admin))
          (settings.rolePrefix ++ sanitize spec.name)] := by
  obtain ⟨hname, hsync, hensure⟩ := syncUser_withPolicies_eq_ok_iff.mp hfirst
  obtain ⟨admin, hadmin, hagain⟩ := (l.under settings).sync_again hsingle hstatic hfailures hactive
    hsync
  obtain ⟨arn, p, hholds, hattached⟩ := Sharder.ensure_holdsOnly hm hensure
  exact ⟨admin, _, hadmin, syncUser_withPolicies_eq_ok_iff.mpr
    ⟨hname, hagain, (Sharder.ensure_of_holdsOnly hholds).trans
      (Sharder.attachMissing_of_attached hholds.kept hattached)⟩, rfl, rfl⟩

/-! ## A user with a past -/

/-- The settings of an operator for one host. -/
def shopSettings : Settings where
  logins := oneHost
  staticRoles := ["developer"]
  rolePrefix := ""
  shard := { loginRoles := ["developer"] }

/-- A policy with two statements for a user, the first of which is for a former role. -/
def crowdedPolicy : StoredPolicy where
  name := "postgres_access_0"
  versions := [("v1", {}), ("v2", { statements := [shopSettings.shard.statement "bob" "bob",
    shopSettings.shard.statement "alice.doe" "alice",
    shopSettings.shard.statement "alice.doe" "alice_doe"] })]
  defaultVersion := "v2"
  nextVersion := 3

/-- A store with nothing but this policy. -/
def crowdedStore : PolicyMemory where
  policies := (∅ : NameMap StoredPolicy).insert (PolicyMemory.arnOf "postgres_access_0")
    crowdedPolicy

theorem crowdedStore_wellFormed : crowdedStore.WellFormed := by
  decide +kernel

/-- A cluster with a managed role of the user that nothing asks for. -/
def staleCluster : Cluster where
  catalog :=
    { memberships := NameMap.ofPairs [("alice_doe", (∅ : NameSet).insert "billing_read")] }

/-- A user who may read and write the orders. -/
def ordersUser : UserSpec where
  name := "alice.doe"
  read := [ordersIntent]
  write := [{ access := ordersIntent }]

/-- Brings this user about. -/
def ordersSync : Program (Cluster × PolicyMemory) Error Unit :=
  (shopSettings.services Lookups.shopLookups.surroundings.withPolicies writeCall.now).syncUser
    "shop" ordersUser

/-- The user is brought about, and to bring it about again only tries to create the login role. -/
theorem ordersUser_again :
    shopSettings.logins.keys = ["db:5432"] ∧ "ON" ∉ shopSettings.staticRoles ∧
      staleCluster.failures = [] ∧ crowdedStore.WellFormed ∧
      ∃ t n, ordersSync (staleCluster, crowdedStore) = .ok () (t, n) ∧
        ∃ admin t', shopSettings.logins["db:5432"]? = some admin ∧
          ordersSync (t, n) = .ok () (t', n) ∧ t'.catalog = t.catalog ∧
          t'.log = t.log ++
            [Cluster.loginThere (.opened (.admin "db:5432" "postgres" admin)) "alice_doe"] := by
  have hsingle : shopSettings.logins.keys = ["db:5432"] := by decide +kernel
  have hstatic : "ON" ∉ shopSettings.staticRoles := by decide
  obtain ⟨⟨t, n⟩, hfirst⟩ : ∃ p, ordersSync (staleCluster, crowdedStore) = .ok () p :=
    ⟨_, Program.ok_of_succeeds (by decide +kernel)⟩
  obtain ⟨admin, t', hadmin, hsecond, hcatalog, hlog⟩ :=
    Services.syncUser_again shopSettings Lookups.shopLookups "db:5432" "shop" ordersUser
      writeCall.now writeCall.now staleCluster t crowdedStore n hsingle hstatic rfl
      crowdedStore_wellFormed (fun _ _ => rfl) hfirst
  have hplanned : ((Lookups.shopLookups.under shopSettings).planned writeCall.now "shop"
      (Intent.ofUser ordersUser.read ordersUser.write)).isEmpty = false := by decide +kernel
  have hlogin : shopSettings.rolePrefix ++ sanitize ordersUser.name = "alice_doe" := by
    decide +kernel
  rw [hplanned, hlogin] at hlog
  exact ⟨hsingle, hstatic, rfl, crowdedStore_wellFormed, t, n, hfirst, admin, t', hadmin, hsecond,
    hcatalog, hlog⟩

end PgSteward
