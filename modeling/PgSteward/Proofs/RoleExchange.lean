import PgSteward.Proofs.RoleOutcomes
import PgSteward.Proofs.WatchedServer

/-!
# The exchange of a role

A login role that reads a database and is to write to it, or the other way round, is made a member
of one managed role of the database, and then the other is taken away.  What is taken away is
decided before any role is given, though, and a role that cannot be given does not hold back what
comes after it.

`access_throughout_iff` says when the login role has access to the database after every single
statement of such a run, and at its end: whenever the exchange is not interrupted (`Interrupts`).  A
watched run shows the states in between (`watched_convergeHost`): up to the last role that is given
nothing is lost, and from there on nothing is lost that is still held at the end.  So only the end
counts, and what holds at the end is known (`rolesOf_outcome`).
-/

namespace PgSteward

open Program

namespace Cluster

variable {session : Session} {login : String} {s t : Cluster}

/-- Whether a login role holds in a cluster all that it holds in another. -/
def HoldsAllOf (login : String) (t s : Cluster) : Prop :=
  ∀ r ∈ s.catalog.rolesOf login, r ∈ t.catalog.rolesOf login

/-- A cluster goes together with itself when it is watched, as far as statements preserve a
condition. -/
theorem related_watched {I : Cluster → Prop} {J : String → Cluster → Prop}
    (hconnect : ∀ t target, I t → I { t with connections := t.connections ++ [target] })
    (hJ : ∀ text t, I t → J text t) :
    server.Related (Watched.Shows I J)
      (fun st => ∀ session t, I t → I ((server.run session st).outcome t).2) server.watched where
  connect := fun target => Watched.related_onPart fun t ht => hconnect t target ht
  run := fun session _ hst => Watched.related_onPart_after fun t ht =>
    ⟨hst session t ht, hJ _ _ (hst session t ht)⟩
  ask := fun _ _ => Watched.related_onPart fun _ ht => ht
  close := fun _ => Watched.related_onPart fun _ ht => ht

theorem grantRole_eq_run (role member : Identifier) :
    server.grantRole session role.name member.name =
      server.run session (.grantRoles [role] member) := by
  unfold Server.grantRole
  rw [Identifier.of_eq_ok_iff.mpr rfl, Identifier.of_eq_ok_iff.mpr rfl]
  rfl

theorem revokeRole_eq_run (role member : Identifier) :
    server.revokeRole session role.name member.name =
      server.run session (.revokeRole role member) := by
  unfold Server.revokeRole
  rw [Identifier.of_eq_ok_iff.mpr rfl, Identifier.of_eq_ok_iff.mpr rfl]
  rfl

/-- Statements by which a role is given take nothing away. -/
theorem gives_holdsAllOf : Converger.Gives fun st =>
    ∀ session t, HoldsAllOf login t s →
      HoldsAllOf login ((server.run session st).outcome t).2 s := by
  have hkeeps : ∀ st : Statement, (∀ session, Keeps (·.catalog.memberships)
        (server.run session st)) → ∀ session t, HoldsAllOf login t s →
      HoldsAllOf login ((server.run session st).outcome t).2 s := by
    intro st hst session t ht r hr
    have hsame := congrArg (fun m : NameMap NameSet => r ∈ m.getD login ∅) (hst session t)
    exact hsame.mpr (ht r hr)
  have hquiet : ∀ st : Statement, st.IsQuiet → ∀ session,
      Keeps (·.catalog.memberships) (server.run session st) := by
    intro st hst session
    rw [server_eq_refusing]
    exact keeps_memberships_of_quiet hst
  constructor
  · intro i isLogin
    refine hkeeps _ fun session => ?_
    rw [server_eq_refusing]
    exact keeps_memberships_of_createRole i isLogin
  · intro i j session t ht r hr
    rw [← grantRole_eq_run]
    have hgive : r ∈ (((Converger.inMemory ∅ [] "").give session "" { user := "" } j.name i.name
        none).outcome t).2.catalog.rolesOf login ↔ _ := Converger.rolesOf_give rfl login r
    exact hgive.mpr (.inl (ht r hr))
  · exact fun i j => hkeeps _ (hquiet _ trivial)
  · exact fun i j => hkeeps _ (hquiet _ trivial)
  · exact fun p i j => hkeeps _ (hquiet _ trivial)

end Cluster

namespace Converger

variable {c : Converger Cluster} {login host : String} {s : Cluster}

/-- The revocations of a run preserve what is left when they are over. -/
theorem revoke_preserves {session session' : Session} {roles : List String} {u stop : Cluster}
    (hstop : stop = (roles.map fun role => Cluster.server.revokeRole session role login).foldl
      (fun s p => (p.outcome s).2) u)
    {i j : Identifier} (hi : i.name ∈ roles) (hj : j.name = login) {t : Cluster}
    (ht : t.besides login = u.besides login ∧ t.HoldsAllOf login stop) :
    ((Cluster.server.run session' (.revokeRole i j)).outcome t).2.besides login =
        u.besides login ∧
      ((Cluster.server.run session' (.revokeRole i j)).outcome t).2.HoldsAllOf login stop := by
  rw [← Cluster.revokeRole_eq_run, hj]
  refine ⟨(keeps_besides_revokeRole t).trans ht.1, fun r hr => ?_⟩
  have hleft := hr
  rw [hstop, rolesOf_revokes] at hleft
  refine rolesOf_revokeRole login r |>.mpr ⟨ht.2 r hr, ?_⟩
  rintro ⟨-, rfl, hon, hsucceeds⟩
  refine hleft.2 ⟨rfl, hi, hon, ?_⟩
  rw [← hsucceeds, succeeds_revokeRole_session session' session]
  exact succeedsBy_revokeRole _ _ ht.1.symm

/-- A server that is watched while a login role loses nothing. -/
theorem related_while_holding (hc : c.server = Cluster.server) {J : String → Cluster → Prop}
    (hJ : ∀ text t, Cluster.HoldsAllOf login t s → J text t) :
    c.server.Related (Watched.Shows (Cluster.HoldsAllOf login · s) J)
      (fun st => ∀ session t, Cluster.HoldsAllOf login t s →
        Cluster.HoldsAllOf login ((Cluster.server.run session st).outcome t).2 s)
      Cluster.server.watched := by
  rw [hc]
  exact Cluster.related_watched (fun _ _ ht => ht) fun text t ht => hJ text t ht

/-- Steps that are watched.  The roles to give come first, so nothing is lost that was held before,
and from there on nothing is lost that is still held at the end. -/
theorem watched_steps (hc : c.server = Cluster.server) {J : String → Cluster → Prop}
    {session : Session} {admin : AdminLogin} {required : RequiredRoles} {change : RoleChange}
    {stop u : Cluster} {w : Watched Cluster}
    (hstop : stop = (c.steps session host admin login required change).foldl
      (fun s p => (p.outcome s).2) u)
    (hbefore : ∀ text t, Cluster.HoldsAllOf login t s → J text t)
    (hafter : ∀ text t, Cluster.HoldsAllOf login t stop → J text t)
    (hu : Watched.Shows (Cluster.HoldsAllOf login · s) J u w) :
    Agree (Watched.Shows (fun _ => True) J)
      (gather (c.steps session host admin login required change) :
        Program Cluster SqlError (List SqlError))
      (gather ((c.over Cluster.server.watched).steps session host admin login required change))
      u w := by
  unfold steps
  rw [gather_append, gather_append]
  refine Agree.bind (related_gather ?_ u w hu) (fun _ _ h => h.weaken) fun es v w' hgives hv => ?_
  · rw [List.forall₂_map_left_iff, List.forall₂_map_right_iff, List.forall₂_same]
    exact fun role _ => related_give
      ((related_while_holding hc hbefore).imp Cluster.gives_holdsAllOf.of_givenBy)
  -- What the revocations preserve refers to the end, which is up to them from here on.
  have hstop' : stop = (change.remove.map fun role => Cluster.server.revokeRole session role
      login).foldl (fun s p => (p.outcome s).2) v := by
    have hgiven : ((gather (change.add.map fun role => c.give session host admin login role
        (required[role]?.join)) : Program Cluster SqlError (List SqlError)).outcome u).2 = _ :=
      gather_outcome _ u
    rw [outcome, hgives] at hgiven
    rw [hstop, steps, List.foldl_append, ← hgiven, hc]
  let I : Cluster → Prop := fun t =>
    t.besides login = v.besides login ∧ t.HoldsAllOf login stop
  have htaking : c.server.Related (Watched.Shows I J)
      (fun st => ∀ session t, I t → I ((Cluster.server.run session st).outcome t).2)
      Cluster.server.watched := by
    rw [hc]
    exact Cluster.related_watched (fun _ _ ht => ht) fun text t ht => hafter text t ht.2
  have hleft : Watched.Shows I J v w' := by
    refine ⟨hv.1, ⟨rfl, fun r hr => ?_⟩, hv.2.2⟩
    rw [hstop', rolesOf_revokes] at hr
    exact hr.1
  refine Agree.bind (related_gather ?_ v w' hleft) (fun _ _ h => h.weaken)
    fun es' t w _ h => related_pure _ t w h.weaken
  rw [List.forall₂_map_left_iff, List.forall₂_map_right_iff, List.forall₂_same]
  exact fun role hrole => htaking.revokeRole fun i j hi hj session t ht =>
    revoke_preserves hstop' (hi ▸ hrole) hj ht

/-- A run that is watched ends as it does when nobody watches.  In between the login role holds all
that it held before the run, or all that it holds after it. -/
theorem watched_convergeHost (hc : c.server = Cluster.server) (login host : String)
    (accesses : List PlannedAccess) (s : Cluster) :
    Agree (Watched.Shows (fun _ => True) fun _ t => t.HoldsAllOf login s ∨
        t.HoldsAllOf login ((c.convergeHost login host accesses).outcome s).2)
      (c.convergeHost login host accesses)
      ((c.over Cluster.server.watched).convergeHost login host accesses) s { now := s } := by
  let stop := ((c.convergeHost login host accesses).outcome s).2
  let J : String → Cluster → Prop := fun _ t => t.HoldsAllOf login s ∨ t.HoldsAllOf login stop
  show Agree (Watched.Shows (fun _ => True) J) _ _ _ _
  have hbefore := related_while_holding hc
    fun text t (ht : t.HoldsAllOf login s) => show J text t from .inl ht
  have hstart : Watched.Shows (·.HoldsAllOf login s) J s { now := s } :=
    ⟨rfl, fun r hr => hr, by simp⟩
  -- After the steps no statement is run any more, so the session is closed whatever holds.
  have hend : c.server.Related (Watched.Shows (fun _ => True) J) (fun _ => False)
      Cluster.server.watched := by
    rw [hc]
    exact ⟨fun _ => Watched.related_onPart fun _ _ => trivial, fun _ _ => False.elim,
      fun _ _ => Watched.related_onPart fun _ _ => trivial,
      fun _ => Watched.related_onPart fun _ _ => trivial⟩
  unfold convergeHost
  show Agree _ (Program.ofExcept (loginFor c.logins host) >>= _)
    (Program.ofExcept (loginFor c.logins host) >>= _) s _
  cases hlogin : c.logins[host]? with
  | none =>
      rw [loginFor, hlogin]
      exact related_throw _ _ _ hstart.weaken
  | some admin =>
      rw [loginFor_eq_ok_iff.mpr hlogin]
      show Agree _ (Program.mapError Error.sql _ >>= _) (Program.mapError Error.sql _ >>= _) s _
      refine Agree.bind (Agree.mapError ?_) (fun _ _ h => h) fun errors t w _ h =>
        related_failIf _ t w h
      refine (hbefore.connect _ _ _ hstart).bind (fun _ _ h => h.weaken)
        fun session s₁ w₁ hconnect h₁ => ?_
      refine (related_require hbefore (fun i _ => Cluster.gives_holdsAllOf.createRole i true)
        _ _ _ h₁).bind (fun _ _ h => h.weaken) fun required s₂ w₂ hrequire h₂ => ?_
      refine (hbefore.ask session _ _ _ h₂).bind (fun _ _ h => h.weaken)
        fun existing s₃ w₃ hask h₃ => ?_
      refine Agree.bind (watched_steps hc ?_ (fun _ _ => .inl) (fun _ _ => .inr) h₃)
        (fun _ _ h => h) fun errors t w _ h =>
          related_bind (hend.close session) (fun _ => related_pure errors) t w h
      rw [hc] at hconnect hask
      cases hconnect
      cases hask
      change c.require (c.adminSession host admin) login accesses
        (connected host c.adminDatabase admin s) = .ok required s₂ at hrequire
      show ((c.convergeHost login host accesses).outcome s).2 = _
      rw [outcome_convergeHost hc hlogin, hrequire]
      rfl

end Converger

/-! ## The two roles of a database -/

/-- Whether a login role is a member of one of the managed roles of a database. -/
def Cluster.HasAccess (s : Cluster) (login database : String) : Prop :=
  readRole database ∈ s.catalog.rolesOf login ∨ readWriteRole database ∈ s.catalog.rolesOf login

instance (s : Cluster) (login database : String) : Decidable (s.HasAccess login database) :=
  inferInstanceAs (Decidable (_ ∨ _))

/-- The managed role of a database that is not needed. -/
def DatabaseNeed.otherRole (n : DatabaseNeed) (database : String) : String :=
  match n.privilege with
  | .read => readWriteRole database
  | .write => readRole database

theorem isManagedRole_otherRole (n : DatabaseNeed) (database : String) :
    isManagedRole (n.otherRole database) = true := by
  cases h : n.privilege with
  | read =>
      have hrole := isManagedRole_role { n with privilege := .write } database
      simpa [DatabaseNeed.role, DatabaseNeed.otherRole, h] using hrole
  | write =>
      have hrole := isManagedRole_role { n with privilege := .read } database
      simpa [DatabaseNeed.role, DatabaseNeed.otherRole, h] using hrole

theorem Cluster.hasAccess_iff (s : Cluster) (login database : String) (n : DatabaseNeed) :
    s.HasAccess login database ↔ n.role database ∈ s.catalog.rolesOf login ∨
      n.otherRole database ∈ s.catalog.rolesOf login := by
  unfold HasAccess DatabaseNeed.role DatabaseNeed.otherRole
  cases n.privilege with
  | read => exact Iff.rfl
  | write => exact or_comm

theorem Cluster.HasAccess.mono {s t : Cluster} {login database : String}
    (h : s.HasAccess login database) (ht : t.HoldsAllOf login s) : t.HasAccess login database :=
  h.imp (ht _) (ht _)

/-- Whether a condition holds after every statement that a watched program runs, and at its end. -/
def Watched.Throughout {σ ε α : Type} (Q : σ → Prop) (q : Program (Watched σ) ε α) (start : σ) :
    Prop :=
  (∀ call ∈ recordOf q start, Q call.2) ∧ Q (q.outcome { now := start }).2.now

namespace Converger

variable {c : Converger Cluster} {login host database : String} {accesses : List PlannedAccess}
  {s : Cluster}

/-- Whether a run on a host ends the access of a login role to a database that it still needs: the
role that is needed was not there before and cannot be given, and the other one is taken away. -/
def Interrupts (c : Converger Cluster) (login host database : String)
    (accesses : List PlannedAccess) (s : Cluster) : Prop :=
  ∃ (admin : AdminLogin) (n : DatabaseNeed), c.Reaches login host accesses admin s ∧
    (needsOf accesses)[database]? = some n ∧
    n.role database ∉ s.catalog.rolesOf login ∧
    n.otherRole database ∉ RequiredRoles.onHost c.staticRoles accesses ∧
    (c.give (c.adminSession host admin) host admin login (n.role database)
      (some { database, schemas := n.schemas, privileges := n.privileges })).succeeds s = false ∧
    (Cluster.server.revokeRole (c.adminSession host admin) (n.otherRole database)
      login).succeeds s = true

/-- A run that gets to its steps is interrupted or not by what it does about the two roles of the
database. -/
theorem interrupts_iff_of_need {admin : AdminLogin} {n : DatabaseNeed}
    (hreaches : c.Reaches login host accesses admin s)
    (hn : (needsOf accesses)[database]? = some n) :
    c.Interrupts login host database accesses s ↔
      n.role database ∉ s.catalog.rolesOf login ∧
        n.otherRole database ∉ RequiredRoles.onHost c.staticRoles accesses ∧
        (c.give (c.adminSession host admin) host admin login (n.role database)
          (some { database, schemas := n.schemas, privileges := n.privileges })).succeeds s =
            false ∧
        (Cluster.server.revokeRole (c.adminSession host admin) (n.otherRole database)
          login).succeeds s = true := by
  constructor
  · rintro ⟨admin', n', hreaches', hn', hrest⟩
    obtain rfl : admin' = admin := Option.some.inj (hreaches'.1.symm.trans hreaches.1)
    obtain rfl : n' = n := Option.some.inj (hn'.symm.trans hn)
    exact hrest
  · exact fun hrest => ⟨admin, n, hreaches, hn, hrest⟩

/-- A login role has lost its access to a database that it needs exactly when the exchange of the
two roles of the database was interrupted. -/
theorem hasAccess_outcome_iff (hc : c.server = Cluster.server)
    (hneeded : ∃ a ∈ accesses, a.database = database) (hheld : s.HasAccess login database) :
    ((c.convergeHost login host accesses).outcome s).2.HasAccess login database ↔
      ¬c.Interrupts login host database accesses s := by
  by_cases hreaches : ∃ admin, c.Reaches login host accesses admin s
  · obtain ⟨admin, hadmin⟩ := hreaches
    obtain ⟨a, ha, rfl⟩ := hneeded
    obtain ⟨n, hn, -⟩ := exists_need ha
    have hon : RequiredRoles.onHost c.staticRoles accesses = .of c.staticRoles accesses := by
      rw [RequiredRoles.onHost, if_neg (by cases accesses <;> simp_all)]
    have hgrant : (RequiredRoles.onHost c.staticRoles accesses)[n.role a.database]? =
        some (some { database := a.database, schemas := n.schemas,
                     privileges := n.privileges }) := by
      rw [hon]
      exact RequiredRoles.getElem?_of_eq_some_iff.mpr ⟨a.database, n, hn, rfl, rfl⟩
    have hrole : n.role a.database ∈ RequiredRoles.onHost c.staticRoles accesses := by
      rw [Std.ExtTreeMap.mem_iff_isSome_getElem?, hgrant]
      rfl
    have hrole' := ne_on_of_isManagedRole (isManagedRole_role n a.database)
    have hother := isManagedRole_otherRole n a.database
    have hother' := ne_on_of_isManagedRole hother
    rw [Cluster.hasAccess_iff _ _ _ n] at hheld ⊢
    rw [interrupts_iff_of_need hadmin hn, rolesOf_outcome hc hadmin, rolesOf_outcome hc hadmin,
      if_pos rfl, if_pos rfl, hgrant, Option.join_some]
    grind
  -- A run that does not get to its steps takes nothing away, and so interrupts nothing.
  · have hnot := not_exists.mp hreaches
    constructor
    · rintro - ⟨admin, n, hadmin, -⟩
      exact hnot admin hadmin
    · intro _
      unfold Cluster.HasAccess
      rw [rolesOf_of_not_reaches hc hnot]
      exact hheld

/-- A login role that is a member of one of the two managed roles of a database, and that still
needs access to it, is a member of one of them after every single statement of a run on the host and
at its end, unless the exchange of one for the other is interrupted. -/
theorem access_throughout_iff (logins : NameMap AdminLogin) (static : List String)
    (adminDatabase login host database : String) (accesses : List PlannedAccess) (s : Cluster)
    (hneeded : ∃ a ∈ accesses, a.database = database) (hheld : s.HasAccess login database) :
    Watched.Throughout (·.HasAccess login database)
        (((inMemory logins static adminDatabase).over Cluster.server.watched).convergeHost login
          host accesses) s ↔
      ¬(inMemory logins static adminDatabase).Interrupts login host database accesses s := by
  have hc : (inMemory logins static adminDatabase).server = Cluster.server := rfl
  obtain ⟨-, hnow, -, hbetween⟩ := watched_convergeHost hc login host accesses s
  rw [← hasAccess_outcome_iff hc hneeded hheld]
  constructor
  · rintro ⟨-, hend⟩
    rw [hnow] at hend
    exact hend
  · intro hend
    refine ⟨fun call hcall => ?_, by rw [hnow]; exact hend⟩
    rcases hbetween call hcall with hbefore | hafter
    · exact hheld.mono hbefore
    · exact hend.mono hafter

/-! ## A reader who is to write -/

/-- The need to write orders. -/
def ordersToWrite : PlannedAccess where
  host := "db:5432"
  database := "orders"
  schema := "orders"
  privilege := .write
  extended := false
  intent := { host := { value := "db:5432" }, database := { value := "orders" } }

/-- A cluster where bob reads orders, with the statements that it refuses. -/
def readerCluster (failures : List (String × String)) : Cluster where
  catalog :=
    ({ roles := Std.ExtTreeSet.ofList ["bob"] _ } : Catalog).addMembership "bob" "orders_read"
  failures := failures

/-- The logins of one host. -/
def exchangeLogins : NameMap AdminLogin := NameMap.ofPairs [("db:5432", { user := "admin" })]

/-- Without a refusal bob has access all the time. -/
theorem reader_keeps_access :
    (∃ a ∈ [ordersToWrite], a.database = "orders") ∧
      (readerCluster []).HasAccess "bob" "orders" ∧
      Watched.Throughout (·.HasAccess "bob" "orders")
        (((inMemory exchangeLogins [] "postgres").over Cluster.server.watched).convergeHost "bob"
          "db:5432" [ordersToWrite]) (readerCluster []) := by
  have hneeded : ∃ a ∈ [ordersToWrite], a.database = "orders" := ⟨ordersToWrite, by simp, rfl⟩
  have hheld : (readerCluster []).HasAccess "bob" "orders" := by decide +kernel
  refine ⟨hneeded, hheld, (access_throughout_iff exchangeLogins [] "postgres" "bob" "db:5432"
    "orders" [ordersToWrite] (readerCluster []) hneeded hheld).mpr ?_⟩
  rintro ⟨admin, n, ⟨hlogin, -⟩, hn, -, -, hgive, -⟩
  have hadmin : exchangeLogins["db:5432"]? = some { user := "admin" } := by decide +kernel
  have hneed : (needsOf [ordersToWrite])["orders"]? = some
      { privilege := .write, extended := false,
        schemas := Std.ExtTreeSet.ofList ["orders"] _ } := by
    decide +kernel
  cases hadmin.symm.trans hlogin
  cases hneed.symm.trans hn
  revert hgive
  decide +kernel

/-- When the role to write cannot be given, the role to read is taken away all the same. -/
theorem reader_loses_access :
    (∃ a ∈ [ordersToWrite], a.database = "orders") ∧
      (readerCluster [("GRANT orders_readwrite TO", "42501")]).HasAccess "bob" "orders" ∧
      ¬Watched.Throughout (·.HasAccess "bob" "orders")
        (((inMemory exchangeLogins [] "postgres").over Cluster.server.watched).convergeHost "bob"
          "db:5432" [ordersToWrite]) (readerCluster [("GRANT orders_readwrite TO", "42501")]) := by
  refine ⟨⟨ordersToWrite, by simp, rfl⟩, by decide +kernel, ?_⟩
  rintro ⟨-, hend⟩
  revert hend
  decide +kernel

end Converger

end PgSteward
