import PgSteward.Proofs.EncodedBytes
import PgSteward.Proofs.RoleExchange

/-!
# One failure does not hold back the rest

A run for a login role goes to every host that has a login or a planned access, once and in the
order of their bytes, whatever the runs on the hosts before have come to (`Visits`).  On a host each
role is given or taken away as if it were the only one (`Independent`): the steps change nothing
that the success of another step depends on.

`failures_are_independent` says both for every plan, every set of logins and everything that the
server refuses.
-/

namespace PgSteward

open Program

/-! ## Errors together -/

/-- The errors among some results. -/
def Program.failures (results : List (Except Error Unit)) : List Error :=
  results.filterMap fun r => match r with
    | .ok () => none
    | .error e => some e

/-- A combined error reports all that the single errors report. -/
theorem Error.parts_of_combine {errors : List Error} {e : Error} (h : combine errors = some e) :
    e.parts = errors.flatMap parts := by
  unfold combine at h
  split at h
  next => cases h
  next =>
    cases h
    exact (List.flatMap_singleton _ _).symm
  next =>
    cases h
    rfl

theorem Program.failures_eq_nil_iff {results : List (Except Error Unit)} :
    failures results = [] ↔ ∀ r ∈ results, r = .ok () := by
  rw [failures, List.filterMap_eq_nil_iff]
  refine forall₂_congr fun r _ => ?_
  cases r <;> simp

theorem Program.exists_error_of_ne_ok {result : Except Error Unit} (h : result ≠ .ok ()) :
    ∃ e, result = .error e := by
  cases result with
  | ok => exact absurd rfl h
  | error e => exact ⟨e, rfl⟩

/-! ## Connections -/

namespace Cluster

variable {session : Session} {st : Statement}

/-- The connections of a cluster to other hosts than one. -/
def elsewhere (host : String) (s : Cluster) : List ConnectionTarget :=
  s.connections.filter fun target => target.host ≠ host

theorem keeps_connections_run : Keeps (·.connections) (server.run session st) := by
  intro s
  obtain ⟨e, c, hafter, -⟩ := outcome_run_server session st s
  rw [hafter]
  rfl

theorem keeps_elsewhere_run {host : String} : Keeps (elsewhere host) (server.run session st) :=
  fun s => congrArg (List.filter _) (keeps_connections_run s)

theorem keeps_elsewhere_connect (host database : String) (admin : AdminLogin) :
    Keeps (elsewhere host) (server.connect (.admin host database admin)) := by
  intro s
  show (s.connections ++ [ConnectionTarget.admin host database admin]).filter _ =
    s.connections.filter _
  simp [ConnectionTarget.admin]

end Cluster

namespace Converger

variable {c : Converger Cluster} {login host : String} {accesses : List PlannedAccess}
  {admin : AdminLogin} {s t : Cluster}

/-- A run on a host connects to this host only. -/
theorem keeps_elsewhere_convergeHost (hc : c.server = Cluster.server) :
    Keeps (Cluster.elsewhere host) (c.convergeHost login host accesses) := by
  have hrun : ∀ session st, Keeps (Cluster.elsewhere host) (c.server.run session st) := by
    rw [hc]
    exact fun _ _ => Cluster.keeps_elsewhere_run
  have hconnect : ∀ database admin,
      Keeps (Cluster.elsewhere host) (c.server.connect (.admin host database admin)) := by
    rw [hc]
    exact Cluster.keeps_elsewhere_connect host
  have hclose : ∀ session, Keeps (Cluster.elsewhere host) (c.server.close session) := by
    rw [hc]
    exact fun _ _ => rfl
  have hask : ∀ session, Keeps (Cluster.elsewhere host)
      (c.server.roleMemberships session login) := by
    rw [hc]
    exact fun _ _ => rfl
  refine keeps_bind (keeps_ofExcept _) fun admin => keeps_bind (keeps_mapError ?_) fun errors =>
    keeps_iff.mpr fun v => related_failIf _
  refine keeps_bind (hconnect _ admin) fun session =>
    keeps_bind (keeps_require fun _ => hrun session _) fun required =>
      keeps_bind (hask session) fun existing =>
        keeps_bind (keeps_gather fun p hp => ?_) fun errors =>
          keeps_bind (hclose session) fun _ => keeps_pure errors
  have hgrant : ∀ role, Keeps (Cluster.elsewhere host) (c.server.grantRole session role login) :=
    fun role => keeps_bind (keeps_ofExcept _) fun i => keeps_bind (keeps_ofExcept _) fun j =>
      hrun session (.grantRoles [i] j)
  rcases List.mem_append.mp hp with hgive | hrevoke
  · obtain ⟨role, -, rfl⟩ := List.mem_map.mp hgive
    cases required[role]?.join with
    | none => exact hgrant role
    | some grant =>
        refine keeps_bind (keeps_prepare (fun database => hconnect database admin)
          (fun session role => hrun session _) (fun session st _ => hrun session st) hclose)
          fun _ => hgrant role
  · obtain ⟨role, -, rfl⟩ := List.mem_map.mp hrevoke
    exact keeps_bind (keeps_ofExcept _) fun i => keeps_bind (keeps_ofExcept _) fun j =>
      hrun session (.revokeRole i j)

/-- A run on a host opens the connection of its administrator first, and more to this host only. -/
theorem connections_convergeHost (hc : c.server = Cluster.server)
    (h : c.logins[host]? = some admin) :
    ∃ more, ((c.convergeHost login host accesses).outcome s).2.connections =
        s.connections ++ .admin host c.adminDatabase admin :: more ∧
      ∀ target ∈ more, target.host = host := by
  let before := (connected host c.adminDatabase admin s).connections
  have hserver : c.server.Related (fun u v => u = v ∧ before <+: u.connections) (fun _ => True)
      c.server := by
    rw [hc]
    refine (Cluster.related_preserving fun u target hu => ?_).imp fun st _ session u hu => ?_
    · exact hu.trans (List.prefix_append ..)
    · have hsame : ((Cluster.server.run session st).outcome u).2.connections = u.connections :=
        Cluster.keeps_connections_run u
      rw [hsame]
      exact hu
  have hprefix : before <+: ((c.convergeHost login host accesses).outcome s).2.connections := by
    rw [outcome_convergeHost hc h]
    have hrelated : Related (fun u v => u = v ∧ before <+: u.connections)
        (c.require (c.adminSession host admin) login accesses)
        (c.require (c.adminSession host admin) login accesses) :=
      related_require hserver (fun _ _ => trivial) accesses
    have hrequire := (hrelated _ (connected host c.adminDatabase admin s)
      ⟨rfl, List.prefix_refl before⟩).2.2
    rw [outcome] at hrequire
    cases hrun : c.require (c.adminSession host admin) login accesses
        (connected host c.adminDatabase admin s) with
    | error e t =>
        rw [hrun] at hrequire
        exact hrequire
    | ok required t =>
        rw [hrun] at hrequire
        have hsteps : List.Forall₂ (Related fun u v => u = v ∧ before <+: u.connections)
            (c.steps (c.adminSession host admin) host admin login required
              (.of (t.catalog.rolesOf login).toList required)) _ :=
          related_steps (hserver.imp fun _ _ => trivial) (t.catalog.rolesOf login).toList
        exact foldl_outcome_preserves (List.forall₂_same.mp hsteps) hrequire
  obtain ⟨more, hmore⟩ := hprefix
  have hconnections : ((c.convergeHost login host accesses).outcome s).2.connections =
      s.connections ++ .admin host c.adminDatabase admin :: more := by
    rw [← hmore]
    exact List.append_assoc ..
  refine ⟨more, hconnections, fun target htarget => ?_⟩
  have helsewhere : ((c.convergeHost login host accesses).outcome s).2.elsewhere host =
      s.elsewhere host := keeps_elsewhere_convergeHost hc s
  unfold Cluster.elsewhere at helsewhere
  rw [hconnections, List.filter_append, List.append_right_eq_self, List.filter_eq_nil_iff]
    at helsewhere
  simpa using helsewhere target (List.mem_cons_of_mem _ htarget)

/-! ## One host -/

/-- Whether a run on a host has done all that could be done, whatever has failed in it.  In what it
leaves, `stop`, nothing depends on anything but the cluster from which it has started. -/
structure Independent (c : Converger Cluster) (login host : String)
    (accesses : List PlannedAccess) (s : Cluster) (stop : Except Error Unit × Cluster) : Prop where
  /-- A host without a login is reported and gets no connection. -/
  unknown : c.logins[host]? = none →
    stop = (.error (.invalid s!"unknown credentials for host {host}"), s)
  /-- A host with a login gets the connection of its administrator, and more to this host only. -/
  connections : ∀ admin, c.logins[host]? = some admin → ∃ more,
    stop.2.connections = s.connections ++ .admin host c.adminDatabase admin :: more ∧
      ∀ target ∈ more, target.host = host
  /-- Every step is run, and each succeeds as it does alone. -/
  steps : ∀ admin, c.Reaches login host accesses admin s → ∃ t : Cluster,
    stop.2 = (c.stepsOn login host accesses admin s).foldl (fun s p => (p.outcome s).2) t ∧
      ∀ front p back, c.stepsOn login host accesses admin s = front ++ p :: back →
        p.succeeds (front.foldl (fun s p => (p.outcome s).2) t) = p.succeeds s
  /-- A role that is to be given is held if the steps for it succeed. -/
  given : ∀ admin, c.Reaches login host accesses admin s →
    ∀ role ∈ (RoleChange.of (s.catalog.rolesOf login).toList
      (.onHost c.staticRoles accesses)).add, role ≠ "ON" →
      (c.give (c.adminSession host admin) host admin login role
        ((RequiredRoles.onHost c.staticRoles accesses)[role]?.join)).succeeds s = true →
      role ∈ stop.2.catalog.rolesOf login
  /-- A role that is to be taken away is not held if its revocation succeeds. -/
  taken : ∀ admin, c.Reaches login host accesses admin s →
    ∀ role ∈ (RoleChange.of (s.catalog.rolesOf login).toList
      (.onHost c.staticRoles accesses)).remove,
      (c.server.revokeRole (c.adminSession host admin) role login).succeeds s = true →
      role ∉ stop.2.catalog.rolesOf login
  /-- The run succeeds exactly when it gets to its steps and each of them succeeds. -/
  ok_iff : stop.1 = .ok () ↔ ∃ admin, c.Reaches login host accesses admin s ∧
    ∀ p ∈ c.stepsOn login host accesses admin s, p.succeeds s = true

/-- A run on a host succeeds exactly when it gets to its steps and each of them succeeds alone. -/
theorem convergeHost_ok_iff (hc : c.server = Cluster.server) :
    ((c.convergeHost login host accesses).outcome s).1 = .ok () ↔
      ∃ admin, c.Reaches login host accesses admin s ∧
        ∀ p ∈ c.stepsOn login host accesses admin s, p.succeeds s = true := by
  have hc' : c.server = Cluster.refusing Cluster.refusal? := hc.trans Cluster.server_eq_refusing
  have hsteps : ∀ {admin t}, c.require (c.adminSession host admin) login accesses
      (connected host c.adminDatabase admin s) = .ok (.onHost c.staticRoles accesses) t →
      t.catalog.rolesOf login = s.catalog.rolesOf login ∧
        ((Program.sequence (c.stepsOn login host accesses admin s)).succeeds t = true ↔
          ∀ p ∈ c.stepsOn login host accesses admin s, p.succeeds s = true) := by
    intro admin t hrequire
    have hkept := (keeps_memberships_require hc).of_ok hrequire
    refine ⟨congrArg (fun m : NameMap NameSet => m.getD login ∅) hkept, ?_⟩
    have hbesides : t.besides login = (connected host c.adminDatabase admin s).besides login :=
      (keeps_besides_require hc).of_ok hrequire
    exact succeeds_sequence_iff (fun p hp => besides_of_mem_steps hc hp) hbesides
  constructor
  · intro hok
    obtain ⟨_, stop, hrun⟩ := succeeds_iff.mp (outcome_eq_ok_iff.mp hok)
    obtain ⟨admin, t, hlogin, hrequire, hsequence⟩ := (convergeHost_eq_ok_iff hc').mp hrun
    obtain ⟨hroles, hiff⟩ := hsteps hrequire
    rw [hroles] at hsequence
    refine ⟨admin, ⟨hlogin, ?_⟩, hiff.mp (succeeds_of_ok hsequence)⟩
    exact (succeeds_require_connected hc).symm.trans (succeeds_of_ok hrequire)
  · rintro ⟨admin, hreaches, hall⟩
    obtain ⟨t, hrequire, -, -, -⟩ := outcome_of_reaches hc hreaches
    obtain ⟨hroles, hiff⟩ := hsteps hrequire
    obtain ⟨_, stop, hsequence⟩ := succeeds_iff.mp (hiff.mpr hall)
    rw [stepsOn, ← hroles] at hsequence
    have hrun := (convergeHost_eq_ok_iff hc').mpr
      ⟨admin, t, hreaches.1, hrequire, hsequence⟩
    rw [outcome, hrun]

/-- A run on a host fails if one of its steps does. -/
theorem Independent.ne_ok {stop : Except Error Unit × Cluster}
    (h : c.Independent login host accesses s stop) (hlogin : c.logins[host]? = some admin)
    {p : Program Cluster SqlError Unit} (hp : p ∈ c.stepsOn login host accesses admin s)
    (hfails : p.succeeds s ≠ true) : stop.1 ≠ .ok () := by
  intro hok
  obtain ⟨admin', ⟨hlogin', -⟩, hsteps⟩ := h.ok_iff.mp hok
  cases hlogin.symm.trans hlogin'
  exact hfails (hsteps p hp)

/-- Every run on a host does all that can be done. -/
theorem independent_convergeHost (hc : c.server = Cluster.server) :
    c.Independent login host accesses s ((c.convergeHost login host accesses).outcome s) where
  unknown := outcome_of_no_login
  connections := fun _ => connections_convergeHost hc
  steps := by
    intro admin hreaches
    obtain ⟨t, -, -, hbesides, houtcome⟩ := outcome_of_reaches hc hreaches
    refine ⟨t, houtcome, fun front p back hsplit => ?_⟩
    have hmem : ∀ q ∈ front ++ p :: back,
        Keeps (Cluster.besides login) q ∧ SucceedsBy (Cluster.besides login) q := fun q hq =>
      besides_of_mem_steps hc (hsplit ▸ hq)
    refine (hmem p (by simp)).2 _ _ (.trans ?_ hbesides)
    exact keeps_foldl_outcome (fun q hq => (hmem q (List.mem_append_left _ hq)).1) t
  given := by
    intro admin hreaches role hrole hon hgive
    rw [rolesOf_outcome hc hreaches, if_pos rfl]
    exact .inr ⟨(RoleChange.mem_add_iff.mp hrole).1, hon, hgive⟩
  taken := by
    intro admin hreaches role hrole hrevoke
    obtain ⟨-, hmanaged, hneeded⟩ := RoleChange.mem_remove_iff.mp hrole
    rw [rolesOf_outcome hc hreaches, if_pos rfl]
    rintro (⟨-, hkept⟩ | ⟨hrequired, -⟩)
    · exact hkept ⟨hmanaged, hneeded, hc ▸ hrevoke⟩
    · exact hneeded hrequired
  ok_iff := convergeHost_ok_iff hc

/-! ## All hosts -/

/-- Runs on hosts one after the other.  Each starts from what the one before has left, whatever that
one has come to. -/
inductive Visits (c : Converger Cluster) (login : String) :
    List (String × List PlannedAccess) → Cluster → List (Except Error Unit) → Cluster → Prop
  | nil (s : Cluster) : Visits c login [] s [] s
  | cons {host : String} {accesses : List PlannedAccess}
      {rest : List (String × List PlannedAccess)} {s stop : Cluster}
      {results : List (Except Error Unit)}
      (h : Visits c login rest ((c.convergeHost login host accesses).outcome s).2 results stop) :
      Visits c login ((host, accesses) :: rest) s
        (((c.convergeHost login host accesses).outcome s).1 :: results) stop

theorem visits_nil_iff {stop : Cluster} {results : List (Except Error Unit)} :
    c.Visits login [] s results stop ↔ results = [] ∧ stop = s := by
  constructor
  · rintro ⟨⟩
    exact ⟨rfl, rfl⟩
  · rintro ⟨rfl, rfl⟩
    exact .nil _

theorem visits_cons_iff {rest : List (String × List PlannedAccess)} {stop : Cluster}
    {results : List (Except Error Unit)} :
    c.Visits login ((host, accesses) :: rest) s results stop ↔
      ∃ more, results = ((c.convergeHost login host accesses).outcome s).1 :: more ∧
        c.Visits login rest ((c.convergeHost login host accesses).outcome s).2 more stop := by
  constructor
  · rintro (_ | hrest)
    exact ⟨_, rfl, hrest⟩
  · rintro ⟨more, rfl, hrest⟩
    exact .cons hrest

/-- Whether a run has gone to all hosts of a plan and all hosts with a login, and has reported what
there was to report. -/
structure VisitsAll (c : Converger Cluster) (login : String) (access : AccessMap) (s : Cluster)
    (stop : Except Error Unit × Cluster) : Prop where
  /-- The hosts are in the order of their bytes, so none is there twice. -/
  sorted : ((c.byHost access).toList.map (·.1)).Pairwise fun a b =>
    Text.toUtf8 a.toList < Text.toUtf8 b.toList
  hosts : ∀ host, host ∈ (c.byHost access).toList.map (·.1) ↔
    host ∈ c.logins ∨ ∃ a ∈ access.all, a.host = host
  accesses : ∀ h ∈ (c.byHost access).toList, h.2 = access.all.filter fun a => a.host = h.1
  visits : ∃ results, c.Visits login (c.byHost access).toList s results stop.2 ∧
    (stop.1 = .ok () ↔ ∀ r ∈ results, r = .ok ()) ∧
    ∀ e, stop.1 = .error e → e.parts = (failures results).flatMap Error.parts

theorem visits_gather (c : Converger Cluster) (login : String)
    (hosts : List (String × List PlannedAccess)) (s : Cluster) :
    ∃ results stop, c.Visits login hosts s results stop ∧
      (gather (hosts.map fun h => c.convergeHost login h.1 h.2) :
        Program Cluster Error (List Error)) s = .ok (failures results) stop := by
  induction hosts generalizing s with
  | nil => exact ⟨[], s, .nil s, rfl⟩
  | cons h rest ih =>
      obtain ⟨results, stop, hvisits, hgather⟩ :=
        ih ((c.convergeHost login h.1 h.2).outcome s).2
      refine ⟨_, stop, .cons hvisits, ?_⟩
      cases hrun : c.convergeHost login h.1 h.2 s with
      | ok u t =>
          simp only [outcome, hrun] at hgather ⊢
          simp only [List.map_cons, gather, hrun, hgather]
          rfl
      | error e t =>
          simp only [outcome, hrun] at hgather ⊢
          simp only [List.map_cons, gather, hrun, hgather]
          rfl

/-- The hosts of a plan are in the order of their bytes, so none is there twice. -/
theorem sorted_byHost {σ : Type} (c : Converger σ) (access : AccessMap) :
    ((c.byHost access).toList.map (·.1)).Pairwise fun a b =>
      Text.toUtf8 a.toList < Text.toUtf8 b.toList := by
  rw [Std.ExtTreeMap.map_fst_toList_eq_keys]
  refine Std.ExtTreeMap.ordered_keys.imp fun {a b} hlt => ?_
  have horder : a < b := compareOfLessAndEq_eq_lt.mp hlt
  exact Text.toUtf8_lt_toUtf8 horder

/-- A run goes to all hosts. -/
theorem visitsAll_converge (c : Converger Cluster) (login : String) (access : AccessMap)
    (s : Cluster) : c.VisitsAll login access s ((c.converge login access).outcome s) where
  sorted := sorted_byHost c access
  hosts := by
    intro host
    rw [Std.ExtTreeMap.map_fst_toList_eq_keys, Std.ExtTreeMap.mem_keys, mem_byHost_iff]
  accesses := fun h hh => getElem?_byHost (Std.ExtTreeMap.mem_toList_iff_getElem?_eq_some.mp hh)
  visits := by
    obtain ⟨results, stop, hvisits, hgather⟩ := visits_gather c login (c.byHost access).toList s
    have hrun : c.converge login access s = failIf (Error.combine (failures results)) stop :=
      bind_of_ok hgather
    refine ⟨results, ?_⟩
    cases hcombine : Error.combine (failures results) with
    | none =>
        have hok : (c.converge login access).outcome s = (.ok (), stop) := by
          rw [outcome, hrun, hcombine]
          rfl
        rw [hok]
        refine ⟨hvisits, iff_of_true rfl ?_, fun e he => by cases he⟩
        exact failures_eq_nil_iff.mp (Error.combine_eq_none_iff.mp hcombine)
    | some e =>
        have herror : (c.converge login access).outcome s = (.error e, stop) := by
          rw [outcome, hrun, hcombine]
          rfl
        rw [herror]
        refine ⟨hvisits, iff_of_false (by simp) fun hall => ?_, fun e' he => ?_⟩
        · rw [Error.combine_eq_none_iff.mpr (failures_eq_nil_iff.mpr hall)] at hcombine
          cases hcombine
        · cases he
          exact Error.parts_of_combine hcombine

/-- Whatever the plan, the logins and the statements that are refused, a run goes to every host with
a login or a planned access once, in the order of their bytes, whatever the hosts before have come
to, and succeeds when nothing fails on any host.  On each host every role is given or taken away
that can be, regardless of the others. -/
theorem failures_are_independent (logins : NameMap AdminLogin) (static : List String)
    (adminDatabase login : String) :
    (∀ access s, (inMemory logins static adminDatabase).VisitsAll login access s
      (((inMemory logins static adminDatabase).converge login access).outcome s)) ∧
    ∀ host accesses s, (inMemory logins static adminDatabase).Independent login host accesses s
      (((inMemory logins static adminDatabase).convergeHost login host accesses).outcome s) :=
  ⟨visitsAll_converge _ login, fun _ _ _ => independent_convergeHost rfl⟩

/-- Two hosts with logins. -/
def twoLogins : NameMap AdminLogin :=
  NameMap.ofPairs [("db:5432", { user := "admin" }), ("eu:5432", { user := "root" })]

/-- Goes to these hosts, with a role that every login gets. -/
def twoHosts : Converger Cluster := inMemory twoLogins ["developer"] "postgres"

/-- The access to write orders on a host. -/
def ordersOn (host : String) : PlannedAccess := { ordersToWrite with host }

/-- A plan to write orders on these hosts, and on one without a login. -/
def ordersEverywhere : AccessMap :=
  NameMap.ofPairs (["us:5432", "db:5432", "eu:5432"].map fun host =>
    ((ordersOn host).key, [ordersOn host]))

theorem byHost_ordersEverywhere : (twoHosts.byHost ordersEverywhere).toList =
    ["db:5432", "eu:5432", "us:5432"].map fun host => (host, [ordersOn host]) := by
  decide +kernel

/-- A cluster where Bob holds two roles that he does not need any more.  It refuses to take one of
them away, and to give the role that every login gets. -/
def reluctantCluster : Cluster where
  catalog :=
    (({ roles := Std.ExtTreeSet.ofList ["bob"] _ } : Catalog).addMembership "bob"
      "billing_read").addMembership "bob" "stock_read"
  failures := [("GRANT developer TO", "42501"), ("REVOKE billing_read FROM", "42501")]

theorem reluctantCluster_reaches : twoHosts.Reaches "bob" "db:5432" [ordersOn "db:5432"]
    { user := "admin" } reluctantCluster :=
  ⟨by decide +kernel, by decide +kernel⟩

/-- Both roles are to be taken away. -/
theorem reluctantCluster_removes {role : String} (h : role ∈ ["billing_read", "stock_read"]) :
    role ∈ (RoleChange.of (reluctantCluster.catalog.rolesOf "bob").toList
      (.onHost twoHosts.staticRoles [ordersOn "db:5432"])).remove := by
  rw [RoleChange.mem_remove_iff]
  revert role
  decide +kernel

/-- The run on the first host fails.  Still Bob gets the role that writes orders there, and one of
the two that he does not need is taken away.  The run goes on to the second host, and reports that
the third one has no login. -/
theorem writer_despite_failure :
    twoHosts.Reaches "bob" "db:5432" [ordersOn "db:5432"] { user := "admin" } reluctantCluster ∧
      ∃ (first second : Cluster) (failure e : Error) (result : Except Error Unit),
        (twoHosts.convergeHost "bob" "db:5432" [ordersOn "db:5432"]).outcome reluctantCluster =
          (.error failure, first) ∧
        "orders_readwrite" ∈ first.catalog.rolesOf "bob" ∧
        "stock_read" ∉ first.catalog.rolesOf "bob" ∧
        (twoHosts.byHost ordersEverywhere).toList =
          ["db:5432", "eu:5432", "us:5432"].map (fun host => (host, [ordersOn host])) ∧
        twoHosts.Visits "bob" (twoHosts.byHost ordersEverywhere).toList reluctantCluster
          [.error failure, result, .error (.invalid "unknown credentials for host us:5432")]
          second ∧
        .admin "eu:5432" "postgres" { user := "root" } ∈ second.connections ∧
        (twoHosts.converge "bob" ordersEverywhere).outcome reluctantCluster =
          (.error e, second) := by
  have hindependent := failures_are_independent twoLogins ["developer"] "postgres" "bob"
  have hall : twoHosts.VisitsAll "bob" ordersEverywhere reluctantCluster
      ((twoHosts.converge "bob" ordersEverywhere).outcome reluctantCluster) := hindependent.1 _ _
  have hhost : ∀ host s, twoHosts.Independent "bob" host [ordersOn host] s
      ((twoHosts.convergeHost "bob" host [ordersOn host]).outcome s) :=
    fun host s => hindependent.2 host _ s
  -- the stops of the runs are named and not computed
  obtain ⟨⟨result₁, first⟩, h₁⟩ : ∃ stop, (twoHosts.convergeHost "bob" "db:5432"
      [ordersOn "db:5432"]).outcome reluctantCluster = stop := ⟨_, rfl⟩
  obtain ⟨⟨result₂, second⟩, h₂⟩ : ∃ stop, (twoHosts.convergeHost "bob" "eu:5432"
      [ordersOn "eu:5432"]).outcome first = stop := ⟨_, rfl⟩
  have hfirst := hhost "db:5432" reluctantCluster
  have hsecond := hhost "eu:5432" first
  have hthird := (hhost "us:5432" second).unknown (by decide +kernel)
  rw [h₁] at hfirst
  rw [h₂] at hsecond
  have hgiven : "orders_readwrite" ∈ first.catalog.rolesOf "bob" :=
    hfirst.given _ reluctantCluster_reaches _ (by decide +kernel) (by decide) (by decide +kernel)
  have htaken : "stock_read" ∉ first.catalog.rolesOf "bob" :=
    hfirst.taken _ reluctantCluster_reaches _ (reluctantCluster_removes (by decide))
      (by decide +kernel)
  have hbilling : twoHosts.server.revokeRole (twoHosts.adminSession "db:5432" { user := "admin" })
      "billing_read" "bob" ∈ twoHosts.stepsOn "bob" "db:5432" [ordersOn "db:5432"]
        { user := "admin" } reluctantCluster :=
    List.mem_append_right _ (List.mem_map_of_mem (reluctantCluster_removes (by decide)))
  have hfails : result₁ ≠ .ok () :=
    hfirst.ne_ok reluctantCluster_reaches.1 hbilling (by decide +kernel)
  obtain ⟨more, hconnections, -⟩ := hsecond.connections { user := "root" } (by decide +kernel)
  obtain ⟨results, hvisits, hok, -⟩ := hall.visits
  have hresults := hvisits
  rw [byHost_ordersEverywhere] at hresults
  simp only [List.map_cons, List.map_nil, visits_cons_iff, visits_nil_iff, h₁, h₂, hthird]
    at hresults
  obtain ⟨_, rfl, _, rfl, _, rfl, rfl, hstop⟩ := hresults
  have hlast : ((twoHosts.converge "bob" ordersEverywhere).outcome reluctantCluster).1 ≠ .ok () :=
    fun h => hfails (hok.mp h _ List.mem_cons_self)
  obtain ⟨failure, rfl⟩ := exists_error_of_ne_ok hfails
  obtain ⟨e, he⟩ := exists_error_of_ne_ok hlast
  refine ⟨reluctantCluster_reaches, first, second, failure, e, result₂, h₁, hgiven, htaken,
    byHost_ordersEverywhere, hstop ▸ hvisits, ?_, Prod.ext he hstop⟩
  rw [hconnections]
  exact List.mem_append_right _ List.mem_cons_self

end Converger

end PgSteward
