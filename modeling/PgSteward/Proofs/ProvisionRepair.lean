import PgSteward.Proofs.ProvisionRetry

/-!
# The repair of a failed provisioning

A call that was stopped by a refusal is made again without one.  The second call comes to what a
single call without a refusal comes to, unless the first one has given a shared database away and
then stopped (`PreviousOwnerLost`): the second one no longer knows the previous owner, so the login
role never becomes a member of it.
-/

namespace PgSteward

namespace Cluster

open ProvisionStep

variable {α : Type} {refusal : Refusal} {p : Program Cluster SqlError α} {s : Cluster}
  {steps : List ProvisionStep}

theorem Follows.leftBy (h : Follows refusal p steps s) :
    SameRules s (p.outcome s).2 ∧ LeftBy s.strict s.catalog steps (p.outcome s).2.catalog := by
  cases hrun : p s with
  | ok a t =>
      rw [Program.outcome, hrun]
      obtain ⟨hrules, hpasses, hcatalog⟩ := h.ok a t hrun
      exact ⟨hrules, steps, [], (List.append_nil _).symm, hpasses, hcatalog⟩
  | error e t =>
      rw [Program.outcome, hrun]
      obtain ⟨hrules, done, rest, hsteps, hpasses, hcatalog, -⟩ := h.error e t hrun
      exact ⟨hrules, done, rest, hsteps, hpasses, hcatalog⟩

/-- Without a refusal a run goes up to the first step that is impossible. -/
theorem Follows.finish (h : Follows refusal p steps s) (hspare : refusal.Spares s) :
    (p.succeeds s = true ↔ Passes s.strict s.catalog steps) ∧
      (p.outcome s).2.catalog = ProvisionStep.finish s.strict s.catalog steps := by
  cases hrun : p s with
  | ok a t =>
      rw [Program.outcome, Program.succeeds, hrun]
      obtain ⟨-, hpasses, hcatalog⟩ := h.ok a t hrun
      refine ⟨iff_of_true rfl hpasses, ?_⟩
      rw [finish_of_passes hpasses]
      exact hcatalog
  | error e t =>
      rw [Program.outcome, Program.succeeds, hrun]
      obtain ⟨-, done, rest, rfl, hpasses, hcatalog, hstuck⟩ := h.error e t hrun
      obtain ⟨step, more, rfl, hstep⟩ := hstuck hspare
      have himpossible := hstep.not_possible
      rw [hcatalog] at himpossible
      refine ⟨iff_of_false Bool.false_ne_true fun hall => ?_, ?_⟩
      · exact himpossible (passes_append_iff.mp hall).2.1
      · rw [finish_append hpasses, ProvisionStep.finish, if_neg himpossible]
        exact hcatalog

end Cluster

/-- A call that makes a database on a host. -/
structure ProvisionCall where
  /-- The role that administers all databases. -/
  managerRole : String
  /-- The database that administrators connect to. -/
  adminDatabase : String
  host : String
  /-- The administrator. -/
  admin : AdminLogin
  target : DatabaseTarget
  extensions : List String

namespace ProvisionCall

open Cluster

/-- What a call does on a server. -/
def run (call : ProvisionCall) (server : Server Cluster) : Program Cluster SqlError Unit :=
  Provisioner.provide
    { server, managerRole := call.managerRole, adminDatabase := call.adminDatabase }
    call.host call.admin call.target call.extensions

/-- What a call leaves of a cluster that refuses some statements. -/
def left (call : ProvisionCall) (refusal : Refusal) (s : Cluster) : Cluster :=
  ((call.run (refusing refusal)).outcome s).2

variable {call : ProvisionCall} {refusal : Refusal} {s t : Cluster}

theorem exists_of_ofAll {names : List String} {is : List Identifier}
    (h : Identifier.ofAll names = .ok is) : names = is.map (·.name) := by
  induction names generalizing is with
  | nil =>
      cases h
      rfl
  | cons name rest ih =>
      obtain ⟨i, hi, h⟩ := Program.except_bind_eq_ok_iff.mp h
      obtain ⟨js, hjs, h⟩ := Program.except_bind_eq_ok_iff.mp h
      cases h
      rw [List.map_cons, Identifier.of_eq_ok_iff.mp hi, ← ih hjs]

/-- Names that have been checked may stand in statements. -/
theorem names_of_checkNames {p : Provisioner Cluster} {target : DatabaseTarget}
    {extensions : List String} (hnames : p.checkNames target extensions = .ok ()) :
    ∃ (m r d : Identifier) (es : List Identifier), m.name = p.managerRole ∧
      r.name = target.user ∧ d.name = target.name ∧ extensions = es.map (·.name) := by
  obtain ⟨d, hd, hnames⟩ := Program.except_bind_eq_ok_iff.mp hnames
  obtain ⟨r, hr, hnames⟩ := Program.except_bind_eq_ok_iff.mp hnames
  obtain ⟨m, hm, hnames⟩ := Program.except_bind_eq_ok_iff.mp hnames
  obtain ⟨es, hes, -⟩ := Program.except_bind_eq_ok_iff.mp hnames
  exact ⟨m, r, d, es, Identifier.of_eq_ok_iff.mp hm, Identifier.of_eq_ok_iff.mp hr,
    Identifier.of_eq_ok_iff.mp hd, exists_of_ofAll hes⟩

/-- All names of a call may stand in statements, or it fails at once. -/
theorem names_or_error (call : ProvisionCall) (server : Server Cluster) (s : Cluster) :
    (∃ (m r d : Identifier) (es : List Identifier), m.name = call.managerRole ∧
      r.name = call.target.user ∧ d.name = call.target.name ∧
      call.extensions = es.map (·.name)) ∨ ∃ e, call.run server s = .error e s := by
  unfold run Provisioner.provide
  cases hnames : Provisioner.checkNames
      { server, managerRole := call.managerRole, adminDatabase := call.adminDatabase }
      call.target call.extensions with
  | ok u => exact .inl (names_of_checkNames hnames)
  | error e => exact .inr ⟨e, rfl⟩

/-- All names of a call that succeeds may stand in statements. -/
theorem names_of_ok {server : Server Cluster} (h : call.run server s = .ok () t) :
    ∃ (m r d : Identifier) (es : List Identifier), m.name = call.managerRole ∧
      r.name = call.target.user ∧ d.name = call.target.name ∧
      call.extensions = es.map (·.name) := by
  rcases names_or_error call server s with hnames | ⟨e, herror⟩
  · exact hnames
  · cases herror.symm.trans h

theorem spares_of_no_failures (h : s.failures = []) : Refusal.Spares refusal? s := by
  intro u hu statement
  unfold refusal?
  rw [hu, h]
  rfl

theorem follows_run (hfatal : refusal.Fatal s) {m r d : Identifier} {es : List Identifier}
    (hm : m.name = call.managerRole) (hr : r.name = call.target.user)
    (hd : d.name = call.target.name) (hes : call.extensions = es.map (·.name)) :
    ∃ joins, (joins = joinSteps m r ∨ (joins = [] ∧ ¬refusal.Spares s)) ∧
      Follows refusal (call.run (refusing refusal))
        (roleSteps m r call.target.password ++ joins ++
          ownerSteps s.catalog call.admin.user call.target m r d ++ schemaSteps r d es) s := by
  unfold run
  rw [hes]
  exact follows_provide hfatal rfl hr hm hd es

theorem follows_run_of_no_failures (h : s.failures = []) {m r d : Identifier}
    {es : List Identifier} (hm : m.name = call.managerRole) (hr : r.name = call.target.user)
    (hd : d.name = call.target.name) (hes : call.extensions = es.map (·.name)) :
    Follows refusal? (call.run Cluster.server)
      (allSteps s.catalog call.admin.user call.target m r d es) s := by
  have hspare : Refusal.Spares refusal? s := spares_of_no_failures h
  obtain ⟨joins, hjoins, hrun⟩ := follows_run hspare.fatal hm hr hd hes
  rcases hjoins with rfl | ⟨-, hunspared⟩
  · rwa [List.append_assoc, List.append_assoc, ← allSteps_eq, ← server_eq_refusing] at hrun
  · exact absurd hspare hunspared

/-- A call that has failed is made again without a refusal, and succeeds.  It comes to the catalog
of a single call without a refusal exactly when the failed call has not lost the previous owner of
a shared database; or, if a single call fails, when the database was complete before. -/
theorem retry_repairs_iff (hfatal : refusal.Fatal s) (hs : s.failures = [])
    (hretry : call.run Cluster.server (call.left refusal s) = .ok () t) :
    t.catalog = ((call.run Cluster.server).outcome s).2.catalog ↔
      ((call.run Cluster.server).succeeds s = true →
        ¬PreviousOwnerLost s.catalog (call.left refusal s).catalog call.admin.user call.managerRole
          call.target) ∧
      ((call.run Cluster.server).succeeds s = false →
        IsComplete s.catalog call.target call.extensions) := by
  obtain ⟨m, r, d, es, hm, hr, hd, hes⟩ := names_of_ok hretry
  obtain ⟨joins, hjoins, hfirst⟩ := follows_run hfatal hm hr hd hes
  obtain ⟨hrules, hleft⟩ := hfirst.leftBy
  have hsecond := follows_run_of_no_failures (s := call.left refusal s) (hrules.2.trans hs) hm hr hd
    hes
  obtain ⟨-, hpasses, hcatalog⟩ := hsecond.ok () t hretry
  have hstrict : (call.left refusal s).strict = s.strict := hrules.1
  rw [hstrict] at hpasses hcatalog
  rw [← ProvisionStep.finish_of_passes hpasses] at hcatalog
  obtain ⟨hclean, hsame⟩ := (follows_run_of_no_failures hs hm hr hd hes).finish
    (spares_of_no_failures hs)
  have hiff := finish_eq_iff_of_run hr hd (hjoins.imp_right And.left) hleft hpasses
  rw [← Bool.not_eq_true, hclean, hcatalog, hsame, ← hm, hes]
  exact hiff

/-! ## A database that another role has owned -/

/-- The refusal of one statement, for want of a connection. -/
def refuses (text : String) : Refusal := fun _ statement =>
  if statement = text then some "08006" else none

theorem fatal_refuses (text : String) : (refuses text).Fatal s := by
  intro u _ statement code h
  unfold refuses at h
  split at h
  · cases h
    rfl
  · cases h

/-- A call that shares the orders. -/
def ordersCall : ProvisionCall where
  managerRole := "manager"
  adminDatabase := "postgres"
  host := "db:5432"
  admin := { user := "admin" }
  target := { name := "orders", user := "orders", password := "secret", shared := true }
  extensions := ["hstore"]

/-- A cluster on which another role owns the orders. -/
def legacyCluster : Cluster where
  catalog :=
    { roles := Std.ExtTreeSet.ofList ["legacy"] _,
      databases := NameMap.ofPairs [("orders", "legacy")] }

/-- A call that has stopped at the schema is repaired by the next one. -/
theorem ordersCall_repaired :
    Refusal.Fatal (refuses "CREATE SCHEMA orders") legacyCluster ∧ legacyCluster.failures = [] ∧
      ∃ t, ordersCall.run Cluster.server
          (ordersCall.left (refuses "CREATE SCHEMA orders") legacyCluster) = .ok () t ∧
        t.catalog = ((ordersCall.run Cluster.server).outcome legacyCluster).2.catalog := by
  have hretry := Program.ok_of_succeeds (p := ordersCall.run Cluster.server)
    (s := ordersCall.left (refuses "CREATE SCHEMA orders") legacyCluster) (by decide +kernel)
  refine ⟨fatal_refuses _, rfl, _, hretry, ?_⟩
  refine (retry_repairs_iff (fatal_refuses _) rfl hretry).mpr ⟨fun _ => ?_, fun hfails => ?_⟩
  · rintro ⟨owner, howner, -, -, hmember⟩
    have hlegacy : previousOwner? legacyCluster.catalog ordersCall.admin.user
        ordersCall.managerRole ordersCall.target = some "legacy" := by decide +kernel
    cases hlegacy.symm.trans howner
    exact hmember (by decide +kernel)
  · have hclean : (ordersCall.run Cluster.server).succeeds legacyCluster = true := by
      decide +kernel
    rw [hclean] at hfails
    cases hfails

/-- One that has stopped at the membership in the previous owner is not: a refusal of this single
statement loses the membership. -/
theorem ordersCall_not_repaired :
    Refusal.Fatal (refuses "GRANT legacy TO orders") legacyCluster ∧
      (ordersCall.left (refuses "GRANT legacy TO orders") legacyCluster).log.countP
        (fun e => e.statement = "GRANT legacy TO orders") = 1 ∧
      (ordersCall.run Cluster.server).succeeds legacyCluster = true ∧
      ∃ t, ordersCall.run Cluster.server
          (ordersCall.left (refuses "GRANT legacy TO orders") legacyCluster) = .ok () t ∧
        t.catalog ≠ ((ordersCall.run Cluster.server).outcome legacyCluster).2.catalog := by
  refine ⟨fatal_refuses _, by decide +kernel, by decide +kernel, _,
    Program.ok_of_succeeds (by decide +kernel), by decide +kernel⟩

end ProvisionCall

end PgSteward
