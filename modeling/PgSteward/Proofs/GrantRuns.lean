import PgSteward.Access.Grants
import PgSteward.Proofs.ConvergenceRuns

/-!
# Runs of grants

Whatever calls a cluster has seen, after a successful call for a user on a single host the managed
roles of its login role are those that the plan of this call needs.  A call succeeds only when its
plan has no errors and the roles could be made to follow it (`SyncCall.run_ok`).
-/

namespace PgSteward

/-- A call that gives a user the access of its intents. -/
structure SyncCall where
  /-- Who gives it. -/
  granter : Granter Cluster
  now : Instant
  /-- The namespace. -/
  space : String
  /-- The sanitized name of the user. -/
  sanitized : String
  reads : List AccessIntent
  writes : List WriteIntent

namespace SyncCall

/-- What a call does. -/
def run (call : SyncCall) : Program Cluster Error Unit :=
  call.granter.sync call.now call.space call.sanitized call.reads call.writes

/-- The plan of a call. -/
def plan (call : SyncCall) : Program Cluster Error Plan :=
  call.granter.planner.plan call.now call.space call.reads call.writes

/-- The login role of the user of a call. -/
def login (call : SyncCall) : String := call.granter.loginRole call.sanitized

/-- A call succeeds when its plan has no errors and the roles follow it. -/
theorem run_ok {call : SyncCall} {s t : Cluster} (h : call.run s = .ok () t) :
    ∃ plan s₁, call.plan s = .ok plan s₁ ∧ plan.errors = [] ∧
      call.granter.converger.converge call.login plan.access s₁ = .ok () t := by
  unfold run Granter.sync at h
  obtain ⟨plan, s₁, hplan, hrest⟩ := Program.bind_eq_ok_iff.mp h
  obtain ⟨result, s₂, hattempt, hend⟩ := Program.bind_eq_ok_iff.mp hrest
  cases hrun : call.granter.converger.converge call.login plan.access s₁ with
  | ok u s₃ =>
      have hattempt' := hattempt.symm.trans (Program.attempt_of_ok hrun)
      cases hattempt'
      obtain ⟨hnone, rfl⟩ := Program.failIf_eq_ok_iff.mp hend
      exact ⟨plan, s₁, hplan, Error.combine_eq_none_iff.mp hnone, hrun⟩
  | error e s₃ =>
      have hattempt' := hattempt.symm.trans (Program.attempt_of_error hrun)
      cases hattempt'
      obtain ⟨hnone, -⟩ := Program.failIf_eq_ok_iff.mp hend
      rw [Error.combine_eq_none_iff] at hnone
      simp at hnone

end SyncCall

/-- No role that is needed is named like the word in front of an object. -/
theorem RequiredRoles.on_not_mem {static : List String} (hstatic : "ON" ∉ static)
    (accesses : List PlannedAccess) : "ON" ∉ onHost static accesses := by
  intro hmem
  unfold onHost at hmem
  split at hmem
  next => simp at hmem
  next =>
    rcases static_or_managed hmem with h | h
    · exact hstatic h
    · exact absurd h (by decide)

/-- A login role whose roles have been made to follow accesses on a host holds exactly the roles
that the accesses need and those of its former roles that are not managed.  So after any calls the
managed roles of a user on a single host are those that the plan of the last call needs. -/
theorem roles_follow_last_plan (logins : NameMap AdminLogin) (static : List String)
    (adminDatabase : String) (hstatic : "ON" ∉ static) :
    (∀ (login host : String) (accesses : List PlannedAccess) (s t : Cluster),
      (Converger.inMemory logins static adminDatabase).convergeHost login host accesses s =
        .ok () t →
      ∀ r, r ∈ t.catalog.rolesOf login ↔
        r ∈ RequiredRoles.onHost static accesses ∨
          (r ∈ s.catalog.rolesOf login ∧ isManagedRole r = false)) ∧
    ∀ (host : String) (calls : List SyncCall) (last : SyncCall) (s s₁ t : Cluster)
      (errors : List Error), logins.keys = [host] →
      last.granter.converger = .inMemory logins static adminDatabase →
      (Program.gather (calls.map SyncCall.run) : Program Cluster Error (List Error)) s =
        .ok errors s₁ →
      last.run s₁ = .ok () t →
      ∃ plan s₂, last.plan s₁ = .ok plan s₂ ∧ ∀ r, isManagedRole r = true →
        (r ∈ t.catalog.rolesOf last.login ↔ r ∈ RequiredRoles.onHost static plan.access.all) := by
  have hexact : ∀ (login host : String) (accesses : List PlannedAccess) (s t : Cluster),
      (Converger.inMemory logins static adminDatabase).convergeHost login host accesses s =
        .ok () t →
      ∀ r, r ∈ t.catalog.rolesOf login ↔
        r ∈ RequiredRoles.onHost static accesses ∨
          (r ∈ s.catalog.rolesOf login ∧ isManagedRole r = false) := by
    intro login host accesses s t h r
    rw [Converger.rolesOf_convergeHost Cluster.server_eq_refusing h, if_pos rfl]
    refine or_congr ⟨fun hr => hr.1, fun hr => ⟨hr, .inl ?_⟩⟩ Iff.rfl
    rintro rfl
    exact RequiredRoles.on_not_mem hstatic accesses hr
  refine ⟨hexact, ?_⟩
  intro host calls last s s₁ t errors hsingle hconverger _ hlast
  obtain ⟨plan, s₂, hplan, -, hrun⟩ := SyncCall.run_ok hlast
  rw [hconverger] at hrun
  have hhost := Converger.converge_single_ok Cluster.server_eq_refusing hsingle hrun
  refine ⟨plan, s₂, hplan, fun r hr => ?_⟩
  rw [hexact _ _ _ _ _ hhost r, hr]
  simp

/-! ## A user who may only read after having written -/

/-- A login on one host. -/
def oneHost : NameMap AdminLogin := NameMap.ofPairs [("db:5432", { user := "admin" })]

/-- Gives access on one host, with a role for every login. -/
def oneHostGranter : Granter Cluster where
  planner :=
    { selector :=
        { logins := oneHost, credentials := fun _ _ => pure none
          resolver := { read := fun _ _ _ => throw .noValue } }
      inventory := fun _ => pure []
      flags := {} }
  converger := .inMemory oneHost ["developer"] "postgres"
  rolePrefix := ""

/-- The access to the orders. -/
def ordersIntent : AccessIntent :=
  { host := { value := "db:5432" }, database := { value := "orders" } }

/-- A call that lets a user write orders. -/
def writeCall : SyncCall where
  granter := oneHostGranter
  now :=
    { year := 2024, month := 5, day := 1, hour := 12, minute := 0, second := 0, nano := 0
      isDate := by decide
      isTime := by decide }
  space := "shop"
  sanitized := "alice"
  reads := []
  writes := [{ access := ordersIntent }]

/-- A call that lets a user read orders. -/
def readCall : SyncCall := { writeCall with reads := [ordersIntent], writes := [] }

/-- The cluster after a call that lets the user write. -/
def writtenCluster : Cluster :=
  ((Program.gather [writeCall.run] : Program Cluster Error (List Error)).outcome {}).2

/-- The user ends up with the managed roles of the plan to read, and by a run on the host with
exactly what that run needs. -/
theorem readCall_follows_last_plan :
    "ON" ∉ ["developer"] ∧ oneHost.keys = ["db:5432"] ∧
      (∃ t, readCall.run writtenCluster = .ok () t ∧ ∃ plan s₂,
        readCall.plan writtenCluster = .ok plan s₂ ∧ ∀ r, isManagedRole r = true →
          (r ∈ t.catalog.rolesOf readCall.login ↔
            r ∈ RequiredRoles.onHost ["developer"] plan.access.all)) ∧
      ∃ t, (Converger.inMemory oneHost ["developer"] "postgres").convergeHost "alice" "db:5432" []
        writtenCluster = .ok () t ∧
        ∀ r, r ∈ t.catalog.rolesOf "alice" ↔
          r ∈ RequiredRoles.onHost ["developer"] [] ∨
            (r ∈ writtenCluster.catalog.rolesOf "alice" ∧ isManagedRole r = false) := by
  have hstatic : "ON" ∉ ["developer"] := by decide
  have hhost : oneHost.keys = ["db:5432"] := by decide +kernel
  obtain ⟨errors, s₁, hwrite⟩ : ∃ errors s₁,
      (Program.gather [writeCall.run] : Program Cluster Error (List Error)) {} = .ok errors s₁ :=
    Program.gather_ok [writeCall.run] {}
  have hwritten : writtenCluster = s₁ := by
    rw [writtenCluster, Program.outcome, hwrite]
  rw [← hwritten] at hwrite
  have hread := Program.ok_of_succeeds (p := readCall.run) (s := writtenCluster)
    (by decide +kernel)
  have hempty := Program.ok_of_succeeds
    (p := (Converger.inMemory oneHost ["developer"] "postgres").convergeHost "alice" "db:5432" [])
    (s := writtenCluster) (by decide +kernel)
  have h := roles_follow_last_plan oneHost ["developer"] "postgres" hstatic
  exact ⟨hstatic, hhost,
    ⟨_, hread,
      h.2 "db:5432" [writeCall] readCall {} writtenCluster _ errors hhost rfl hwrite hread⟩,
    ⟨_, hempty, h.1 _ _ _ _ _ hempty⟩⟩

end PgSteward
