import PgSteward.Proofs.ConvergenceRuns
import PgSteward.Settings

/-!
# Work that goes together

The operator's work is written against the calls that its surroundings offer.  When the calls of two
surroundings go together one by one, all work on the one goes together with the same work on the
other: on databases, on the roles of logins, on the access of users, on their statements and on
service users.

A server need not go together with another for all statements, but only for those that the work
gives it (`Server.Related`).
-/

namespace PgSteward

open Program

variable {σ τ : Type} {R : σ → τ → Prop} {P : Statement → Prop}

/-- Two servers whose calls go together, as far as the statements are of a kind. -/
structure Server.Related (R : σ → τ → Prop) (P : Statement → Prop) (server : Server σ)
    (other : Server τ) : Prop where
  connect : ∀ target, Program.Related R (server.connect target) (other.connect target)
  run : ∀ session st, P st → Program.Related R (server.run session st) (other.run session st)
  ask : ∀ session query, Program.Related R (server.ask session query) (other.ask session query)
  close : ∀ session, Program.Related R (server.close session) (other.close session)

namespace Server.Related

variable {server : Server σ} {other : Server τ} {session : Session} {name role member : String}

/-- Servers go together for fewer statements, too. -/
theorem imp (h : server.Related R P other) {Q : Statement → Prop} (hQ : ∀ st, Q st → P st) :
    server.Related R Q other :=
  ⟨h.connect, fun session st hst => h.run session st (hQ st hst), h.ask, h.close⟩

/-! ## Statements -/

theorem create (h : server.Related R P other) {st : Statement} (hst : P st) :
    Program.Related R (server.create session st) (other.create session st) := by
  refine related_bind (related_attempt (h.run session st hst)) fun r => ?_
  cases r with
  | ok u => exact related_pure true
  | error e =>
      dsimp only
      split
      · exact related_pure false
      · exact related_throw e

theorem runAll (h : server.Related R P other) {sts : List Statement} (hsts : ∀ st ∈ sts, P st) :
    Program.Related R (server.runAll session sts) (other.runAll session sts) := by
  refine related_sequence ?_
  rw [List.forall₂_map_left_iff, List.forall₂_map_right_iff, List.forall₂_same]
  exact fun st hst => h.run session st (hsts st hst)

theorem ensureRole (h : server.Related R P other) {login : Bool} {roles : List String}
    {password : Option String} (hcreate : ∀ i is, P (.createRole i login password is))
    (hset : ∀ i, ∀ w ∈ password, P (.setPassword i w)) (hgrant : ∀ is i, P (.grantRoles is i)) :
    Program.Related R (server.ensureRole session name login roles password)
      (other.ensureRole session name login roles password) := by
  have hmembers : ∀ (i : Identifier) (is : List Identifier), Program.Related R
      (do if !is.isEmpty then server.run session (.grantRoles is i))
      (do if !is.isEmpty then other.run session (.grantRoles is i)) := by
    intro i is
    split
    · exact h.run session _ (hgrant is i)
    · exact related_pure _
  refine related_bind (related_ofExcept _) fun i => related_bind (related_ofExcept _) fun is =>
    related_bind (h.create (hcreate i is)) fun isNew => ?_
  cases isNew with
  | true => exact hmembers i is
  | false =>
      cases password with
      | none => exact hmembers i is
      | some w =>
          exact related_bind (h.run session _ (hset i w rfl)) fun _ => hmembers i is

theorem ensurePlainRole (h : server.Related R P other) {login : Bool}
    (hcreate : ∀ i : Identifier, i.name = name → P (.createRole i login none [])) :
    Program.Related R (server.ensureRole session name login [] none)
      (other.ensureRole session name login [] none) := by
  rw [ensureRole_plain, ensureRole_plain]
  exact related_bind_ofExcept fun i hi =>
    related_bind (h.create (hcreate i (Identifier.of_eq_ok_iff.mp hi))) fun _ => related_pure ()

theorem grantRole (h : server.Related R P other)
    (hst : ∀ i j : Identifier, i.name = role → j.name = member → P (.grantRoles [i] j)) :
    Program.Related R (server.grantRole session role member)
      (other.grantRole session role member) :=
  related_bind_ofExcept fun i hi => related_bind_ofExcept fun j hj =>
    h.run session _ (hst i j (Identifier.of_eq_ok_iff.mp hi) (Identifier.of_eq_ok_iff.mp hj))

theorem revokeRole (h : server.Related R P other)
    (hst : ∀ i j : Identifier, i.name = role → j.name = member → P (.revokeRole i j)) :
    Program.Related R (server.revokeRole session role member)
      (other.revokeRole session role member) :=
  related_bind_ofExcept fun i hi => related_bind_ofExcept fun j hj =>
    h.run session _ (hst i j (Identifier.of_eq_ok_iff.mp hi) (Identifier.of_eq_ok_iff.mp hj))

theorem alterService (h : server.Related R P other) {password : String}
    (hst : ∀ i, P (.alterService i password)) :
    Program.Related R (server.alterService session name password)
      (other.alterService session name password) :=
  related_bind (related_ofExcept _) fun i => h.run session _ (hst i)

theorem ensureDatabase (h : server.Related R P other) (hst : ∀ i, P (.createDatabase i)) :
    Program.Related R (server.ensureDatabase session name)
      (other.ensureDatabase session name) :=
  related_bind (related_ofExcept _) fun i => related_bind (h.create (hst i)) fun _ =>
    related_pure ()

theorem alterDatabaseOwner (h : server.Related R P other) {owner : String}
    (hst : ∀ i j, P (.alterDatabaseOwner i j)) :
    Program.Related R (server.alterDatabaseOwner session name owner)
      (other.alterDatabaseOwner session name owner) :=
  related_bind (related_ofExcept _) fun i => related_bind (related_ofExcept _) fun j =>
    h.run session _ (hst i j)

theorem databaseOwner (h : server.Related R P other) :
    Program.Related R (server.databaseOwner session name) (other.databaseOwner session name) :=
  related_bind (h.ask session _) fun _ => related_pure _

theorem ensureSchema (h : server.Related R P other) (hst : ∀ i, P (.createSchema i)) :
    Program.Related R (server.ensureSchema session name) (other.ensureSchema session name) :=
  related_bind (related_ofExcept _) fun i => related_bind (h.create (hst i)) fun _ =>
    related_pure ()

theorem revokePublic (h : server.Related R P other) (hdatabase : ∀ i, P (.revokeDatabase i))
    (hschema : P .revokeSchema) (htables : P .revokeTables) :
    Program.Related R (server.revokePublic session name) (other.revokePublic session name) :=
  related_bind (related_ofExcept _) fun i => h.runAll (by simp [hdatabase i, hschema, htables])

theorem grantConnect (h : server.Related R P other) (hst : ∀ i j, P (.grantConnect i j)) :
    Program.Related R (server.grantConnect session name role)
      (other.grantConnect session name role) :=
  related_bind (related_ofExcept _) fun i => related_bind (related_ofExcept _) fun j =>
    h.run session _ (hst i j)

theorem grantSchemaUsage (h : server.Related R P other) (hst : ∀ i j, P (.grantUsage i j)) :
    Program.Related R (server.grantSchemaUsage session role name)
      (other.grantSchemaUsage session role name) :=
  related_bind (related_ofExcept _) fun i => related_bind (related_ofExcept _) fun j =>
    h.run session _ (hst i j)

theorem grantTablePrivileges (h : server.Related R P other) {privileges : TablePrivileges}
    (hst : ∀ p i j, P (.grantTables p i j)) :
    Program.Related R (server.grantTablePrivileges session role name privileges)
      (other.grantTablePrivileges session role name privileges) :=
  related_bind (related_ofExcept _) fun i => related_bind (related_ofExcept _) fun j =>
    h.run session _ (hst privileges i j)

theorem ensureExtensions (h : server.Related R P other) {extensions : List String}
    (hst : ∀ i j, P (.createExtension i j)) :
    Program.Related R (server.ensureExtensions session name extensions)
      (other.ensureExtensions session name extensions) := by
  unfold Server.ensureExtensions
  split
  · refine related_bind (related_ofExcept _) fun schema =>
      related_bind (h.ask session _) fun installed => related_sequence ?_
    rw [List.forall₂_map_left_iff, List.forall₂_map_right_iff, List.forall₂_same]
    exact fun extension _ => related_bind (related_ofExcept _) fun i =>
      h.run session _ (hst i schema)
  · exact related_pure _

end Server.Related

/-- A cluster goes together with itself, as far as statements preserve a condition that does not
depend on the connections. -/
theorem Cluster.related_preserving {I : Cluster → Prop}
    (hconnect : ∀ s target, I s → I { s with connections := s.connections ++ [target] }) :
    server.Related (fun s t => s = t ∧ I s)
      (fun st => ∀ session s, I s → I ((server.run session st).outcome s).2) server where
  connect := by
    rintro target s _ ⟨rfl, hs⟩
    exact ⟨rfl, rfl, hconnect s target hs⟩
  run := by
    rintro session st hst s _ ⟨rfl, hs⟩
    exact ⟨rfl, rfl, hst session s hs⟩
  ask := by
    rintro session query s _ ⟨rfl, hs⟩
    exact ⟨rfl, rfl, hs⟩
  close := by
    rintro session s _ ⟨rfl, hs⟩
    exact ⟨rfl, rfl, hs⟩

/-! ## Roles of logins -/

/-- The same work on roles on another server. -/
def Converger.over (c : Converger σ) (server : Server τ) : Converger τ :=
  { server, logins := c.logins, staticRoles := c.staticRoles, adminDatabase := c.adminDatabase }

namespace Converger

variable {c : Converger σ} {other : Server τ} {session : Session} {login host role : String}
  {admin : AdminLogin}

/-- The statements by which a role is given to a login role.  One that carries privileges of its own
is made before and gets its privileges. -/
inductive GivenBy (login role : String) : Option ManagedGrant → Statement → Prop
  | createRole {grant : ManagedGrant} {i : Identifier} (hi : i.name = role) :
      GivenBy login role (some grant) (.createRole i false none [])
  | grantConnect {grant : ManagedGrant} (i j : Identifier) :
      GivenBy login role (some grant) (.grantConnect i j)
  | grantUsage {grant : ManagedGrant} (i j : Identifier) :
      GivenBy login role (some grant) (.grantUsage i j)
  | grantTables {grant : ManagedGrant} (p : TablePrivileges) (i j : Identifier) :
      GivenBy login role (some grant) (.grantTables p i j)
  | grantRole {grant : Option ManagedGrant} {i j : Identifier} (hi : i.name = role)
      (hj : j.name = login) : GivenBy login role grant (.grantRoles [i] j)

/-- The statements of a run for a login role that needs some roles. -/
inductive RunBy (login : String) (required : RequiredRoles) : Statement → Prop
  | login {i : Identifier} (hi : i.name = login) :
      RunBy login required (.createRole i true none [])
  | give {role : String} {st : Statement} (hrole : role ∈ required)
      (hst : GivenBy login role required[role]?.join st) : RunBy login required st
  | revoke {i j : Identifier} (hmanaged : isManagedRole i.name = true) (hi : i.name ∉ required)
      (hj : j.name = login) : RunBy login required (.revokeRole i j)

/-- Kinds of statements that include those by which a role is given. -/
structure Gives (P : Statement → Prop) : Prop where
  createRole : ∀ i login, P (.createRole i login none [])
  grantRole : ∀ i j, P (.grantRoles [i] j)
  grantConnect : ∀ i j, P (.grantConnect i j)
  grantUsage : ∀ i j, P (.grantUsage i j)
  grantTables : ∀ p i j, P (.grantTables p i j)

/-- The statements by which a role is given are among all statements. -/
theorem gives_all : Gives fun _ => True :=
  ⟨fun _ _ => trivial, fun _ _ => trivial, fun _ _ => trivial, fun _ _ => trivial,
    fun _ _ _ => trivial⟩

theorem Gives.of_givenBy (hP : Gives P) {grant : Option ManagedGrant} (st : Statement)
    (hst : GivenBy login role grant st) : P st := by
  cases hst with
  | createRole => exact hP.createRole _ _
  | grantConnect => exact hP.grantConnect _ _
  | grantUsage => exact hP.grantUsage _ _
  | grantTables => exact hP.grantTables _ _ _
  | grantRole => exact hP.grantRole _ _

theorem Gives.of_runBy (hP : Gives P) (hrevoke : ∀ i j, P (.revokeRole i j))
    {required : RequiredRoles} (st : Statement) (hst : RunBy login required st) : P st := by
  cases hst with
  | login => exact hP.createRole _ _
  | give _ hst => exact hP.of_givenBy st hst
  | revoke => exact hrevoke _ _

theorem related_grantSchemas {grant : ManagedGrant}
    (h : c.server.Related R (GivenBy login role (some grant)) other) (schemas : List String) :
    Related R (c.grantSchemas session role grant schemas)
      ((c.over other).grantSchemas session role grant schemas) := by
  induction schemas with
  | nil => exact related_pure ()
  | cons schema rest ih =>
      exact related_bind (h.grantSchemaUsage .grantUsage) fun _ =>
        related_bind (h.grantTablePrivileges .grantTables) fun _ => ih

theorem related_prepare {grant : ManagedGrant}
    (h : c.server.Related R (GivenBy login role (some grant)) other) :
    Related R (c.prepare host admin role grant) ((c.over other).prepare host admin role grant) :=
  related_bind (h.connect _) fun session =>
    related_bind (h.ensurePlainRole fun _ => .createRole) fun _ =>
      related_bind (h.grantConnect .grantConnect) fun _ =>
        related_bind (related_grantSchemas h _) fun _ => h.close session

theorem related_give {grant : Option ManagedGrant}
    (h : c.server.Related R (GivenBy login role grant) other) :
    Related R (c.give session host admin login role grant)
      ((c.over other).give session host admin login role grant) := by
  have hgrant : Related R (c.server.grantRole session role login)
      (other.grantRole session role login) := h.grantRole fun _ _ => .grantRole
  cases grant with
  | none => exact hgrant
  | some grant => exact related_bind (related_prepare h) fun _ => hgrant

theorem related_require (h : c.server.Related R P other)
    (hlogin : ∀ i : Identifier, i.name = login → P (.createRole i true none []))
    (accesses : List PlannedAccess) :
    Related R (c.require session login accesses)
      ((c.over other).require session login accesses) := by
  unfold require
  split
  · exact related_pure _
  · exact related_bind (h.ensurePlainRole hlogin) fun _ => related_pure _

theorem related_steps {required : RequiredRoles}
    (h : c.server.Related R (RunBy login required) other) (existing : List String) :
    List.Forall₂ (Related R)
      (c.steps session host admin login required (.of existing required))
      ((c.over other).steps session host admin login required (.of existing required)) := by
  refine List.rel_append ?_ ?_
  · rw [List.forall₂_map_left_iff, List.forall₂_map_right_iff, List.forall₂_same]
    intro role hrole
    have hrequired : role ∈ required := Std.ExtTreeMap.mem_keys.mp (List.mem_filter.mp hrole).1
    exact related_give (h.imp fun _ => .give hrequired)
  · rw [List.forall₂_map_left_iff, List.forall₂_map_right_iff, List.forall₂_same]
    intro role hrole
    obtain ⟨-, hrole⟩ := List.mem_filter.mp (List.mem_mergeSort.mp hrole)
    rw [Bool.and_eq_true, Bool.not_eq_true', ← Bool.not_eq_true,
      Std.ExtTreeMap.contains_iff_mem] at hrole
    exact h.revokeRole fun i j hi hj => .revoke (hi ▸ hrole.1) (hi ▸ hrole.2) hj

/-- Runs on a host go together when the servers do for the statements of a run that needs what the
accesses come to. -/
theorem related_convergeHost {accesses : List PlannedAccess}
    (h : c.server.Related R (RunBy login (.onHost c.staticRoles accesses)) other) :
    Related R (c.convergeHost login host accesses)
      ((c.over other).convergeHost login host accesses) := by
  refine related_bind (related_ofExcept _) fun admin =>
    related_bind (related_mapError ?_) fun _ => related_failIf _
  refine related_bind (h.connect _) fun session s t hst => ?_
  refine (related_require h (fun _ => .login) accesses s t hst).bind (fun _ _ h => h)
    fun required s' t' hrequire => ?_
  obtain rfl := require_ok hrequire
  exact related_bind (h.ask session _) (fun existing =>
    related_bind (related_gather (related_steps h existing)) fun _ =>
      related_bind (h.close session) fun _ => related_pure _) s' t'

theorem related_converge {access : AccessMap}
    (h : ∀ host ∈ (c.byHost access).toList,
      c.server.Related R (RunBy login (.onHost c.staticRoles host.2)) other) :
    Related R (c.converge login access) ((c.over other).converge login access) := by
  refine related_bind (related_gather ?_) fun _ => related_failIf _
  rw [List.forall₂_map_left_iff, List.forall₂_map_right_iff,
    show (c.over other).byHost access = c.byHost access from rfl, List.forall₂_same]
  exact fun host hhost => related_convergeHost (h host hhost)

end Converger

/-! ## Hosts and plans -/

/-- Two ways to find hosts that go together. -/
structure HostSelector.Related (R : σ → τ → Prop) (s : HostSelector σ) (s' : HostSelector τ) :
    Prop where
  logins : s.logins = s'.logins
  credentials : ∀ space name, Program.Related R (s.credentials space name)
    (s'.credentials space name)
  read : ∀ kind space key, Program.Related R (s.resolver.read kind space key)
    (s'.resolver.read kind space key)

namespace HostSelector.Related

variable {s : HostSelector σ} {s' : HostSelector τ} {space field : String} {reference : Reference}

theorem lookup (h : s.Related R s') :
    Program.Related R (s.resolver.resolve space reference)
      (s'.resolver.resolve space reference) := by
  refine related_bind (related_ofExcept _) fun found => ?_
  cases found with
  | inline value => exact related_pure value
  | held kind key => exact h.read kind space key

theorem resolve (h : s.Related R s') :
    Program.Related R (s.resolve space field reference) (s'.resolve space field reference) :=
  related_mapError h.lookup

theorem resolveOr (h : s.Related R s') {default : String} :
    Program.Related R (s.resolveOr default space field reference)
      (s'.resolveOr default space field reference) := by
  refine related_bind (related_attempt h.lookup) fun found => ?_
  rcases found with e | value
  · cases e with
    | noValue => exact related_pure default
    | _ => exact related_throw _
  · exact related_pure value

theorem fetch (h : s.Related R s') {name : String} :
    Program.Related R (s.fetch space name) (s'.fetch space name) := by
  refine related_bind (h.credentials space name) fun found => ?_
  cases found with
  | none => exact related_throw _
  | some spec => exact related_pure spec

theorem loginOf (h : s.Related R s') {spec : HostCredentialsSpec} :
    Program.Related R (s.loginOf space spec) (s'.loginOf space spec) := by
  refine related_bind h.resolve fun host => related_bind h.resolve fun user =>
    related_bind h.resolve fun password => ?_
  cases spec.params with
  | none => exact related_bind (related_pure "") fun _ => related_pure _
  | some params => exact related_bind h.resolveOr fun _ => related_pure _

theorem select (h : s.Related R s') {host : Option Reference} {hostCredentials : Option String} :
    Program.Related R (s.select space host hostCredentials)
      (s'.select space host hostCredentials) := by
  refine related_bind (related_ofExcept _) fun source => ?_
  cases source with
  | direct reference =>
      refine related_bind h.resolve fun host => ?_
      rw [h.logins]
      exact related_bind (related_ofExcept _) fun login => related_pure _
  | credentials name => exact related_bind h.fetch fun spec => h.loginOf

theorem hostOf (h : s.Related R s') {host : Option Reference} {hostCredentials : Option String} :
    Program.Related R (s.hostOf space host hostCredentials)
      (s'.hostOf space host hostCredentials) := by
  refine related_bind (related_ofExcept _) fun source => ?_
  cases source with
  | direct reference => exact h.resolve
  | credentials name => exact related_bind h.fetch fun spec => h.resolve

end HostSelector.Related

/-- Two ways to plan that go together. -/
structure Planner.Related (R : σ → τ → Prop) (p : Planner σ) (p' : Planner τ) : Prop where
  selector : p.selector.Related R p'.selector
  inventory : ∀ space, Program.Related R (p.inventory space) (p'.inventory space)
  flags : p.flags = p'.flags

namespace Planner.Related

variable {p : Planner σ} {p' : Planner τ} {space host : String} {intent : Intent}

theorem databasesOn {ε : Type} (h : p.Related R p') (databases : List DatabaseSpec) :
    Program.Related R (p.databasesOn space host databases : Program σ ε _)
      (p'.databasesOn space host databases) := by
  induction databases with
  | nil => exact related_pure []
  | cons database rest ih =>
      refine related_bind ?_ fun here => related_bind ih fun others => related_pure _
      refine related_bind (related_attempt h.selector.hostOf) fun found => ?_
      cases found with
      | ok found => exact related_pure _
      | error e => exact related_pure false

theorem planAll (h : p.Related R p') (listed : Option (List DatabaseSpec)) :
    Program.Related R (p.planAll space host listed intent)
      (p'.planAll space host listed intent) := by
  unfold Planner.planAll Planner.accessOn
  rw [h.flags]
  split
  · exact related_pure _
  · cases listed with
    | none =>
        exact related_bind (h.inventory space) fun databases =>
          related_bind (h.databasesOn databases) fun here => related_pure _
    | some databases =>
        exact related_bind (related_pure databases) fun databases =>
          related_bind (h.databasesOn databases) fun here => related_pure _

theorem planOne (h : p.Related R p') :
    Program.Related R (p.planOne space host intent) (p'.planOne space host intent) := by
  unfold Planner.planOne Planner.accessOn
  rw [h.flags]
  exact related_bind h.selector.resolve fun database =>
    related_bind h.selector.resolveOr fun schema => related_pure _

theorem planIntent (h : p.Related R p') (now : Instant) (listed : Option (List DatabaseSpec)) :
    Program.Related R (p.planIntent now space listed intent)
      (p'.planIntent now space listed intent) := by
  unfold Planner.planIntent
  split
  · exact related_pure _
  · refine related_bind h.selector.resolve fun host => ?_
    split
    · exact h.planAll listed
    · exact related_bind h.planOne fun access => related_pure _

theorem planFrom {ε : Type} (h : p.Related R p') (now : Instant) (plan : Plan)
    (listed : Option (List DatabaseSpec)) (intents : List Intent) :
    Program.Related R (p.planFrom now space plan listed intents : Program σ ε _)
      (p'.planFrom now space plan listed intents) := by
  induction intents generalizing plan listed with
  | nil => exact related_pure plan
  | cons intent rest ih =>
      refine related_bind (related_attempt (h.planIntent now listed)) fun result => ?_
      rcases result with e | ⟨listed, accesses⟩
      · exact ih (plan.fail e) listed
      · exact ih (plan.add accesses) listed

end Planner.Related

/-! ## Policies -/

/-- Two policy stores whose calls go together. -/
structure PolicyStore.Related (R : σ → τ → Prop) (store : PolicyStore σ) (other : PolicyStore τ) :
    Prop where
  list : ∀ path, Program.Related R (store.list path) (other.list path)
  create : ∀ name path document, Program.Related R (store.create name path document)
    (other.create name path document)
  createVersion : ∀ arn document, Program.Related R (store.createVersion arn document)
    (other.createVersion arn document)
  deleteVersion : ∀ arn versionId, Program.Related R (store.deleteVersion arn versionId)
    (other.deleteVersion arn versionId)
  attachedRoles : ∀ arn, Program.Related R (store.attachedRoles arn) (other.attachedRoles arn)
  attach : ∀ role arn, Program.Related R (store.attach role arn) (other.attach role arn)
  detach : ∀ role arn, Program.Related R (store.detach role arn) (other.detach role arn)
  delete : ∀ arn, Program.Related R (store.delete arn) (other.delete arn)

namespace PolicyStore.Related

variable {store : PolicyStore σ} {other : PolicyStore τ} {s : ShardSettings} {arn : String}
  {policy : ManagedPolicy}

theorem policies (h : store.Related R other) :
    Program.Related R (Sharder.mk store s).policies (Sharder.mk other s).policies :=
  related_bind (h.list _) fun _ => related_pure _

theorem replaceStatements (h : store.Related R other) (statements : List PolicyStatement) :
    Program.Related R ((Sharder.mk store s).replaceStatements policy statements)
      ((Sharder.mk other s).replaceStatements policy statements) :=
  related_bind (h.createVersion _ _) fun _ => h.deleteVersion _ _

theorem attachMissing (h : store.Related R other) :
    Program.Related R ((Sharder.mk store s).attachMissing arn)
      ((Sharder.mk other s).attachMissing arn) := by
  refine related_bind (h.attachedRoles arn) fun attached => related_sequence ?_
  rw [List.forall₂_map_left_iff, List.forall₂_map_right_iff, List.forall₂_same]
  exact fun role _ => h.attach role arn

theorem settle (h : store.Related R other) (userId : String) (resource : List String)
    (holder : Option ManagedPolicy) (found : List ManagedPolicy) :
    Program.Related R ((Sharder.mk store s).settle userId resource holder found)
      ((Sharder.mk other s).settle userId resource holder found) := by
  induction found generalizing holder with
  | nil => exact related_pure holder
  | cons policy rest ih =>
      rw [Sharder.settle, Sharder.settle]
      cases (sift userId resource holder.isSome policy.document.statements).changed with
      | true => exact related_bind (h.replaceStatements _) fun _ => ih _
      | false => exact ih _

theorem place (h : store.Related R other) (statement : PolicyStatement)
    (found : List ManagedPolicy) :
    Program.Related R ((Sharder.mk store s).place statement found)
      ((Sharder.mk other s).place statement found) := by
  unfold Sharder.place
  dsimp only
  cases found.find? fun p => p.document.statements.length < s.limit with
  | some policy => exact related_bind (h.replaceStatements _) fun _ => related_pure _
  | none => exact related_bind (h.create _ _ _) fun policy => related_pure policy.arn

theorem ensure (h : store.Related R other) (user role : String) :
    Program.Related R ((Sharder.mk store s).ensure user role)
      ((Sharder.mk other s).ensure user role) := by
  refine related_bind h.policies fun found => related_bind (h.settle _ _ _ _) fun holder => ?_
  cases holder with
  | some policy => exact h.attachMissing
  | none => exact related_bind (h.place _ _) fun arn => h.attachMissing

theorem release (h : store.Related R other) (role : String) :
    Program.Related R ((Sharder.mk store s).release arn role)
      ((Sharder.mk other s).release arn role) := by
  refine related_bind (related_attempt (h.detach role arn)) fun result => ?_
  cases result with
  | ok u => exact related_pure ()
  | error e =>
      cases e with
      | noSuchEntity message => exact related_pure ()
      | _ => exact related_throw _

theorem discard (h : store.Related R other) :
    Program.Related R ((Sharder.mk store s).discard arn) ((Sharder.mk other s).discard arn) := by
  refine related_bind (h.attachedRoles arn) fun roles =>
    related_bind (related_sequence ?_) fun _ => h.delete arn
  rw [List.forall₂_map_left_iff, List.forall₂_map_right_iff, List.forall₂_same]
  exact fun role _ => h.release role

theorem removeFrom (h : store.Related R other) (userId : String) :
    Program.Related R ((Sharder.mk store s).removeFrom userId policy)
      ((Sharder.mk other s).removeFrom userId policy) := by
  unfold Sharder.removeFrom
  dsimp only
  split
  · exact related_pure ()
  · split
    · exact h.discard
    · exact h.replaceStatements _

theorem remove (h : store.Related R other) (user : String) :
    Program.Related R ((Sharder.mk store s).remove user) ((Sharder.mk other s).remove user) := by
  refine related_bind h.policies fun found => related_sequence ?_
  rw [List.forall₂_map_left_iff, List.forall₂_map_right_iff, List.forall₂_same]
  exact fun policy _ => h.removeFrom _

end PolicyStore.Related

/-! ## Surroundings -/

/-- Two surroundings whose calls go together, as far as the statements are of a kind. -/
structure Surroundings.Related (R : σ → τ → Prop) (P : Statement → Prop)
    (around : Surroundings σ) (other : Surroundings τ) : Prop where
  server : around.server.Related R P other.server
  read : ∀ kind space key, Program.Related R (around.resolver.read kind space key)
    (other.resolver.read kind space key)
  hostCredentials : ∀ space name, Program.Related R (around.hostCredentials space name)
    (other.hostCredentials space name)
  inventory : ∀ space, Program.Related R (around.inventory space) (other.inventory space)

namespace Surroundings.Related

variable {around : Surroundings σ} {other : Surroundings τ} {now : Instant}

theorem selector (h : around.Related R P other) (settings : Settings) :
    (settings.selector around).Related R (settings.selector other) :=
  ⟨rfl, h.hostCredentials, h.read⟩

theorem planner (h : around.Related R P other) (settings : Settings) :
    (settings.planner around).Related R (settings.planner other) :=
  ⟨h.selector settings, h.inventory, rfl⟩

theorem converge (h : around.Related R P other) (hP : Converger.Gives P)
    (hrevoke : ∀ i j, P (.revokeRole i j)) (settings : Settings) (login : String)
    (access : AccessMap) :
    Program.Related R ((settings.services around now).granter.converger.converge login access)
      ((settings.services other now).granter.converger.converge login access) :=
  Converger.related_converge fun _ _ => h.server.imp (hP.of_runBy hrevoke)

theorem sync (h : around.Related R P other) (hP : Converger.Gives P)
    (hrevoke : ∀ i j, P (.revokeRole i j)) (settings : Settings) (at? : Instant)
    (space sanitized : String) (reads : List AccessIntent) (writes : List WriteIntent) :
    Program.Related R ((settings.services around now).granter.sync at? space sanitized reads writes)
      ((settings.services other now).granter.sync at? space sanitized reads writes) := by
  refine related_bind ((h.planner settings).planFrom _ _ _ _) fun plan =>
    related_bind (related_attempt (h.converge hP hrevoke settings _ _)) fun result => ?_
  cases result with
  | ok u => exact related_failIf _
  | error e => exact related_failIf _

end Surroundings.Related

end PgSteward
