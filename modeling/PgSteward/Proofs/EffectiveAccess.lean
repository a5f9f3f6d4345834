import PgSteward.Proofs.SchemaGrants

/-!
# Accesses that have become effective

A planned access is effective when the grants on its schema have been executed for the managed role.
What a cluster has executed after some calls tells the runs of the calls on their hosts alone: the
privileges of a managed role are those with which a login role got it that had not needed it before
(`Records`).  So an access is effective exactly when one of these runs has covered it
(`Records.effective_iff`), which the last call need not be.
-/

namespace PgSteward

open Cluster

/-- A run on a host. -/
structure HostRun where
  /-- The login role. -/
  login : String
  /-- The roles that it needs on the host. -/
  required : RequiredRoles
deriving DecidableEq

namespace HostRun

variable {runs : List HostRun} {run : HostRun} {login role : String} {g : ManagedGrant}

/-- The roles that a login role has needed by the last of its runs. -/
def lastRequired (runs : List HostRun) (login : String) : RequiredRoles :=
  runs.foldl (fun required run => if run.login = login then run.required else required) ∅

/-- Whether one of some runs gives a managed role to a login role that has not needed it by its run
before. -/
def Gives (runs : List HostRun) (role : String) (g : ManagedGrant) : Prop :=
  ∃ earlier run later, runs = earlier ++ run :: later ∧ run.required[role]? = some (some g) ∧
    role ∉ lastRequired earlier run.login

theorem lastRequired_append_singleton :
    lastRequired (runs ++ [run]) login =
      if run.login = login then run.required else lastRequired runs login := by
  rw [lastRequired, List.foldl_append]
  rfl

theorem gives_append_singleton :
    Gives (runs ++ [run]) role g ↔ Gives runs role g ∨
      (run.required[role]? = some (some g) ∧ role ∉ lastRequired runs run.login) := by
  constructor
  · rintro ⟨earlier, run', later, hruns, hneeded, hnew⟩
    rcases later.eq_nil_or_concat with rfl | ⟨rest, last, rfl⟩
    · obtain ⟨rfl, hrun⟩ := List.append_inj' hruns rfl
      cases hrun
      exact .inr ⟨hneeded, hnew⟩
    · have hruns' : runs ++ [run] = (earlier ++ run' :: rest) ++ [last] := by
        rw [hruns]
        simp
      obtain ⟨rfl, -⟩ := List.append_inj' hruns' rfl
      exact .inl ⟨earlier, run', rest, rfl, hneeded, hnew⟩
  · rintro (⟨earlier, run', later, rfl, hneeded, hnew⟩ | ⟨hneeded, hnew⟩)
    · exact ⟨earlier, run', later ++ [run], by simp, hneeded, hnew⟩
    · exact ⟨runs, run, [], rfl, hneeded, hnew⟩

/-- Whether a cluster holds what some runs have led to: every login role has the managed roles that
it needed last, and the grants on schemas are those of the managed roles that were given. -/
structure Records (s : Cluster) (runs : List HostRun) : Prop where
  /-- The managed roles of each login role. -/
  held : ∀ login role, isManagedRole role = true →
    (role ∈ s.catalog.rolesOf login ↔ role ∈ lastRequired runs login)
  /-- The grants on schemas. -/
  executed : ∀ grant : Statement, grant.IsOnSchema →
    (s.Executed grant ↔ ∃ role g, Gives runs role g ∧ g.Carries role grant)
  /-- All names of the managed roles that were given may stand in statements. -/
  names : ∀ role g, Gives runs role g → ∀ schema ∈ g.schemas,
    ∃ i r : Identifier, i.name = schema ∧ r.name = role

theorem records_empty (strict : Bool) : Records { strict } [] := by
  refine ⟨fun login role _ => ?_, fun grant _ => ?_, ?_⟩
  · simp [lastRequired, Catalog.rolesOf]
  · have hnone : ¬({ strict } : Cluster).Executed grant := by
      rintro ⟨entry, hentry, -⟩
      cases hentry
    simp [hnone, Gives]
  · rintro role g ⟨earlier, run, later, hruns, -⟩
    simp at hruns

theorem isManagedRole_of_onHost {static : List String} {accesses : List PlannedAccess}
    (h : (RequiredRoles.onHost static accesses)[role]? = some (some g)) :
    isManagedRole role = true := by
  unfold RequiredRoles.onHost at h
  split at h
  · simp at h
  · exact RequiredRoles.isManagedRole_of_managed h

/-- One more run adds what it gives. -/
theorem Records.convergeHost {c : Converger Cluster} {refusal : Refusal} {host : String}
    {accesses : List PlannedAccess} {s t : Cluster} (hc : c.server = refusing refusal)
    (h : Records s runs) (hrun : c.convergeHost login host accesses s = .ok () t) :
    Records t (runs ++ [{ login, required := .onHost c.staticRoles accesses }]) := by
  constructor
  · intro other role hmanaged
    rw [Converger.rolesOf_convergeHost hc hrun, lastRequired_append_singleton, hmanaged]
    by_cases hother : other = login
    · simp [hother, ne_on_of_isManagedRole hmanaged]
    · rw [if_neg hother, if_neg (Ne.symm hother)]
      exact h.held other role hmanaged
  · intro grant hgrant
    rw [Converger.convergeHost_executed hc hgrant hrun, h.executed grant hgrant]
    constructor
    · rintro (⟨role, g, hgives, hcarries⟩ | ⟨role, g, hneeded, hnew, hcarries⟩)
      · exact ⟨role, g, gives_append_singleton.mpr (.inl hgives), hcarries⟩
      · rw [h.held login role (isManagedRole_of_onHost hneeded)] at hnew
        exact ⟨role, g, gives_append_singleton.mpr (.inr ⟨hneeded, hnew⟩), hcarries⟩
    · rintro ⟨role, g, hgives, hcarries⟩
      rcases gives_append_singleton.mp hgives with hgives | ⟨hneeded, hnew⟩
      · exact .inl ⟨role, g, hgives, hcarries⟩
      · rw [← h.held login role (isManagedRole_of_onHost hneeded)] at hnew
        exact .inr ⟨role, g, hneeded, hnew, hcarries⟩
  · intro role g hgives
    rcases gives_append_singleton.mp hgives with hgives | ⟨hneeded, hnew⟩
    · exact h.names role g hgives
    · rw [← h.held login role (isManagedRole_of_onHost hneeded)] at hnew
      exact Converger.names_of_convergeHost hc hrun hneeded hnew

end HostRun

/-- A call that gives a login role the roles of its planned accesses. -/
structure ConvergeCall where
  /-- The logins of the administrators, by their hosts. -/
  logins : NameMap AdminLogin
  /-- The roles that every login role with an access gets. -/
  staticRoles : List String
  /-- The database that administrators connect to. -/
  adminDatabase : String
  /-- The login role. -/
  login : String
  /-- The planned accesses. -/
  access : AccessMap

namespace ConvergeCall

open HostRun

/-- What makes the roles of login roles those that they need. -/
def converger (call : ConvergeCall) : Converger Cluster :=
  .inMemory call.logins call.staticRoles call.adminDatabase

/-- What a call does. -/
def run (call : ConvergeCall) : Program Cluster Error Unit :=
  call.converger.converge call.login call.access

/-- The runs of a call on its hosts, in order. -/
def hostRuns (call : ConvergeCall) : List HostRun :=
  (call.converger.byHost call.access).toList.map fun h =>
    { login := call.login, required := .onHost call.staticRoles h.2 }

variable {call : ConvergeCall} {calls : List ConvergeCall} {runs : List HostRun} {s t : Cluster}

theorem records_run (h : Records s runs) (hrun : call.run s = .ok () t) :
    Records t (runs ++ call.hostRuns) := by
  have hall : ∀ (hosts : List (String × List PlannedAccess)) (runs : List HostRun) (s : Cluster),
      Records s runs →
      Program.sequence (hosts.map fun h => call.converger.convergeHost call.login h.1 h.2) s =
        .ok () t →
      Records t (runs ++ hosts.map fun h =>
        { login := call.login, required := .onHost call.staticRoles h.2 }) := by
    intro hosts
    induction hosts with
    | nil =>
        intro runs s h hrun
        cases hrun
        simpa using h
    | cons host rest ih =>
        intro runs s h hrun
        obtain ⟨_, s₁, hhost, hrest⟩ := Program.bind_eq_ok_iff.mp hrun
        have hnext := ih _ s₁ (h.convergeHost server_eq_refusing hhost) hrest
        rwa [List.append_assoc] at hnext
  exact hall _ runs s h (Converger.converge_eq_ok_iff.mp hrun)

/-- After any calls that succeed a cluster holds what the runs on their hosts have led to. -/
theorem records_runs (h : Records s runs)
    (hrun : Program.sequence (calls.map run) s = .ok () t) :
    Records t (runs ++ calls.flatMap hostRuns) := by
  induction calls generalizing s runs with
  | nil =>
      cases hrun
      simpa using h
  | cons call rest ih =>
      obtain ⟨_, s₁, hcall, hrest⟩ := Program.bind_eq_ok_iff.mp hrun
      have hnext := ih (records_run h hcall) hrest
      rwa [List.append_assoc] at hnext

end ConvergeCall

/-- Whether the grants for an access have been executed for a role: the use of the schema and at
least the privileges of the access on its tables. -/
def Effective (s : Cluster) (role : String) (a : PlannedAccess) : Prop :=
  ∃ schema r : Identifier, schema.name = a.schema ∧ r.name = role ∧
    s.Executed (.grantUsage schema r) ∧
    ∃ privileges : TablePrivileges, privileges.Includes a.privileges ∧
      s.Executed (.grantTables privileges schema r)

/-- The grants for an access have been executed when a run has given the role with a grant that
covers the access. -/
theorem HostRun.Records.effective_iff {runs : List HostRun} {s : Cluster} (h : Records s runs)
    (role : String) (a : PlannedAccess) :
    Effective s role a ↔ ∃ g, Gives runs role g ∧ a.schema ∈ g.schemas ∧
      g.privileges.Includes a.privileges := by
  constructor
  · rintro ⟨schema, r, hschema, rfl, -, privileges, hincludes, htables⟩
    obtain ⟨role', g, hgives, name, hname, hrole, hsame, rfl⟩ :=
      (h.executed (.grantTables privileges schema r) trivial).mp htables
    subst hrole
    rw [← hsame, hschema] at hname
    exact ⟨g, hgives, hname, hincludes⟩
  · rintro ⟨g, hgives, hschema, hincludes⟩
    obtain ⟨schema, r, hs, rfl⟩ := h.names role g hgives a.schema hschema
    refine ⟨schema, r, hs, rfl, ?_, g.privileges, hincludes, ?_⟩
    · refine (h.executed (.grantUsage schema r) trivial).mpr ⟨r.name, g, hgives, ?_⟩
      exact ⟨a.schema, hschema, rfl, hs⟩
    · refine (h.executed (.grantTables g.privileges schema r) trivial).mpr ⟨r.name, g, hgives, ?_⟩
      exact ⟨a.schema, hschema, rfl, hs, rfl⟩

/-- After calls that have all succeeded on a fresh cluster a login role holds the managed roles that
it has needed last.  An access is effective for a role exactly when one of the runs has given the
role, to this login role or to another one, with a grant that covers the access.  So an access whose
login role has needed the role before may never become effective. -/
theorem ConvergeCall.effective_iff_given {strict : Bool} {calls : List ConvergeCall} {t : Cluster}
    (hrun : Program.sequence (calls.map ConvergeCall.run) { strict } = .ok () t) :
    (∀ login role, isManagedRole role = true →
      (role ∈ t.catalog.rolesOf login ↔
        role ∈ HostRun.lastRequired (calls.flatMap ConvergeCall.hostRuns) login)) ∧
    ∀ role a, Effective t role a ↔
      ∃ g, HostRun.Gives (calls.flatMap ConvergeCall.hostRuns) role g ∧ a.schema ∈ g.schemas ∧
        g.privileges.Includes a.privileges := by
  have h := ConvergeCall.records_runs (HostRun.records_empty strict) hrun
  exact ⟨h.held, h.effective_iff⟩

/-! ## A user whose access is extended later -/

/-- The access to write orders, with or without the extended privileges. -/
def writeOrders (extended : Bool) : PlannedAccess where
  host := "db:5432"
  database := "orders"
  schema := "orders"
  privilege := .write
  extended := extended
  intent := { host := { value := "db:5432" }, database := { value := "orders" } }

/-- A call that lets a user write orders. -/
def writeOrdersCall (login : String) (extended : Bool) : ConvergeCall where
  logins := NameMap.ofPairs [("db:5432", { user := "admin" })]
  staticRoles := []
  adminDatabase := "postgres"
  login := login
  access := NameMap.ofPairs [("db:5432/orders", [writeOrders extended])]

/-- The calls of a day: Bob writes orders, Alice does with the extended privileges, Bob does not any
more, and in the end he does with the extended privileges as well. -/
def ordersDay : List ConvergeCall :=
  [writeOrdersCall "bob" false, writeOrdersCall "alice" true,
    { writeOrdersCall "bob" false with access := ∅ }, writeOrdersCall "bob" true]

/-- The access is effective after the day, and both users hold the role for it. -/
theorem writeOrders_effective :
    ∃ t, Program.sequence (ordersDay.map ConvergeCall.run) {} = .ok () t ∧
      "orders_readwrite" ∈ t.catalog.rolesOf "alice" ∧
      "orders_readwrite" ∈ t.catalog.rolesOf "bob" ∧
      Effective t "orders_readwrite" (writeOrders true) := by
  have hrun := Program.ok_of_succeeds
    (p := Program.sequence (ordersDay.map ConvergeCall.run)) (s := {}) (by decide +kernel)
  obtain ⟨hheld, heffective⟩ := ConvergeCall.effective_iff_given hrun
  refine ⟨_, hrun, (hheld "alice" _ rfl).mpr ?_, (hheld "bob" _ rfl).mpr ?_,
    (heffective "orders_readwrite" (writeOrders true)).mpr ?_⟩
  · decide +kernel
  · decide +kernel
  · let bobFirst := (writeOrdersCall "bob" false).hostRuns
    let later := (ordersDay.drop 2).flatMap ConvergeCall.hostRuns
    refine ⟨{ database := "orders", schemas := Std.ExtTreeSet.ofList ["orders"] _
              privileges := .extendedWrite }, ⟨bobFirst, _, later, rfl, ?_, ?_⟩, ?_, ?_⟩
    · decide +kernel
    · decide +kernel
    · decide +kernel
    · decide +kernel

/-- The extended privileges are not granted to a user who has written orders without them, although
all calls succeed and the user holds the role. -/
theorem writeOrders_not_effective :
    ∃ t, Program.sequence
          ([writeOrdersCall "bob" false, writeOrdersCall "bob" true].map ConvergeCall.run) {} =
        .ok () t ∧
      writeOrders true ∈ (writeOrdersCall "bob" true).access.all ∧
      "orders_readwrite" ∈ t.catalog.rolesOf "bob" ∧
      ¬Effective t "orders_readwrite" (writeOrders true) := by
  have hrun := Program.ok_of_succeeds
    (p := Program.sequence
      ([writeOrdersCall "bob" false, writeOrdersCall "bob" true].map ConvergeCall.run)) (s := {})
    (by decide +kernel)
  refine ⟨_, hrun, by decide +kernel, by decide +kernel, ?_⟩
  rintro ⟨schema, role, hschema, hrole, -, privileges, hincludes, entry, hentry, htext, -⟩
  have hextended : privileges = .extendedWrite := by
    cases privileges with
    | read => exact absurd hincludes (by decide)
    | write => exact absurd hincludes (by decide)
    | extendedWrite => rfl
  obtain rfl : schema = ⟨"orders", by decide⟩ := Identifier.eq_of_name hschema
  obtain rfl : role = ⟨"orders_readwrite", by decide⟩ := Identifier.eq_of_name hrole
  subst hextended
  -- No statement of the log has the text of the grant.
  revert entry
  decide +kernel

end PgSteward
