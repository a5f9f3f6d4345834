import PgSteward.Proofs.CollectedErrors
import PgSteward.Proofs.RepeatedSync
import PgSteward.Proofs.UserEvents

/-!
# What a user update reports

An update of a user plans its intents, works on one host after the other and sees to the statement,
whatever has failed before.  The errors on the way are put together at four places: on a host, over
the hosts, with those of the plan and with that of the policy service.

So the report of an update is the reports of its parts, one after the other.  There is one gap: a
session that cannot be closed hides what has failed in it (`HostFaults.reported`).
`Services.syncUser_reports` has it all.
-/

namespace PgSteward

open Program

/-! ## Errors on hosts -/

/-- What goes wrong on a host. -/
structure HostFaults where
  /-- Up to the last step, in order. -/
  work : List Error
  /-- When the session is closed. -/
  closing : Option SqlError := none

namespace HostFaults

/-- All that goes wrong. -/
def all (f : HostFaults) : List Error := f.work ++ (f.closing.map Error.sql).toList

/-- What is reported.  A session that cannot be closed hides what went wrong before. -/
def reported (f : HostFaults) : List Error :=
  match f.closing with
  | none => f.work
  | some e => [.sql e]

theorem reported_sublist (f : HostFaults) : f.reported.Sublist f.all := by
  unfold reported all
  cases f.closing with
  | none =>
      rw [Option.map_none, Option.toList_none, List.append_nil]
  | some e => exact List.sublist_append_right f.work [.sql e]

theorem reported_eq_all_iff (f : HostFaults) :
    f.reported = f.all ↔ f.closing = none ∨ f.work = [] := by
  unfold reported all
  cases f.closing with
  | none => simp
  | some e => simp

theorem flatMap_reported_sublist (faults : List HostFaults) :
    (faults.flatMap reported).Sublist (faults.flatMap all) := by
  induction faults with
  | nil => exact .slnil
  | cons f rest ih => exact f.reported_sublist.append ih

/-- Of several hosts all is reported when it is of each. -/
theorem flatMap_reported_eq_iff (faults : List HostFaults) :
    faults.flatMap reported = faults.flatMap all ↔
      ∀ f ∈ faults, f.closing = none ∨ f.work = [] := by
  induction faults with
  | nil => simp
  | cons f rest ih =>
      rw [List.flatMap_cons, List.flatMap_cons, List.forall_mem_cons, ← reported_eq_all_iff, ← ih]
      constructor
      · intro h
        have hlength := congrArg List.length h
        rw [List.length_append, List.length_append] at hlength
        have hfirst := f.reported_sublist.length_le
        have hothers := (flatMap_reported_sublist rest).length_le
        exact List.append_inj h (by omega)
      · rintro ⟨hf, hothers⟩
        rw [hf, hothers]

end HostFaults

namespace Converger

variable {σ : Type} {c : Converger σ} {login host : String} {accesses : List PlannedAccess}
  {admin : AdminLogin} {s : σ}

/-- Opens a session on a host, and finds out how the roles are to change. -/
def opening (c : Converger σ) (login host : String) (accesses : List PlannedAccess)
    (admin : AdminLogin) : Program σ SqlError (Session × RequiredRoles × RoleChange) := do
  let session ← c.server.connect (.admin host c.adminDatabase admin)
  let required ← c.require session login accesses
  let existing ← c.server.roleMemberships session login
  return (session, required, RoleChange.of existing required)

/-- What goes wrong on a host, and what is left.  The roles are given before others are taken
away. -/
def faultsOn (c : Converger σ) (login host : String) (accesses : List PlannedAccess) (s : σ) :
    HostFaults × σ :=
  match loginFor c.logins host with
  | .error e => ({ work := [e] }, s)
  | .ok admin =>
      match c.opening login host accesses admin s with
      | .error e t => ({ work := [.sql e] }, t)
      | .ok (session, required, change) t =>
          let given := outcomes (change.add.map fun role =>
            c.give session host admin login role (required[role]?.join)) t
          let taken := outcomes (change.remove.map fun role =>
            c.server.revokeRole session role login) given.2
          let closed := (c.server.close session).outcome taken.2
          ({ work := (errorsOf given.1 ++ errorsOf taken.1).map .sql
             closing := errorOf closed.1 }, closed.2)

/-- What goes wrong on hosts, one after the other, and what is left. -/
def faultsOnAll (c : Converger σ) (login : String) :
    List (String × List PlannedAccess) → σ → List HostFaults × σ
  | [], s => ([], s)
  | h :: rest, s =>
      let first := c.faultsOn login h.1 h.2 s
      let others := faultsOnAll c login rest first.2
      (first.1 :: others.1, others.2)

theorem isSingle_of_loginFor {e : Error} (h : loginFor c.logins host = .error e) : e.IsSingle := by
  unfold loginFor at h
  split at h
  · cases h
  · cases h
    intro errors he
    cases he

theorem isSingle_of_faultsOn :
    ∀ e ∈ (c.faultsOn login host accesses s).1.reported, e.IsSingle := by
  unfold faultsOn
  cases hlogin : loginFor c.logins host with
  | error e' =>
      intro e he
      rw [List.mem_singleton.mp he]
      exact isSingle_of_loginFor hlogin
  | ok admin =>
      dsimp only
      cases c.opening login host accesses admin s with
      | error e' t =>
          intro e he
          rw [List.mem_singleton.mp he]
          exact Error.isSingle_sql e'
      | ok found t =>
          intro e he
          unfold HostFaults.reported at he
          split at he
          next => exact Error.isSingle_of_mem_map_sql he
          next e' _ =>
            rw [List.mem_singleton.mp he]
            exact Error.isSingle_sql e'

/-- Makes a change on a host, and closes the session. -/
def finish (c : Converger σ) (host : String) (admin : AdminLogin) (login : String)
    (found : Session × RequiredRoles × RoleChange) : Program σ SqlError (List SqlError) := do
  let errors ← Program.gather (c.steps found.1 host admin login found.2.1 found.2.2)
  c.server.close found.1
  return errors

theorem convergeHost_eq_opening (c : Converger σ) (login host : String)
    (accesses : List PlannedAccess) :
    c.convergeHost login host accesses = (do
      let admin ← Program.ofExcept (loginFor c.logins host)
      let errors ← Program.mapError Error.sql
        (c.opening login host accesses admin >>= c.finish host admin login)
      Program.failIf (Error.combine (errors.map .sql))) := by
  unfold convergeHost opening finish
  simp only [bind_assoc, pure_bind]

/-- The steps of a change collect what fails to be given, and then what fails to be taken away. -/
theorem gather_steps (c : Converger σ) (session : Session) (host : String) (admin : AdminLogin)
    (login : String) (required : RequiredRoles) (change : RoleChange) (s : σ) :
    let given := outcomes (change.add.map fun role =>
      c.give session host admin login role (required[role]?.join)) s
    let taken := outcomes (change.remove.map fun role =>
      c.server.revokeRole session role login) given.2
    (Program.gather (c.steps session host admin login required change) :
      Program σ SqlError (List SqlError)) s =
        .ok (errorsOf given.1 ++ errorsOf taken.1) taken.2 := by
  rw [gather_eq_outcomes, steps, outcomes_append, errorsOf, List.filterMap_append]
  rfl

/-- To make a change comes to what fails in its steps, unless the session cannot be closed. -/
theorem outcome_finish (c : Converger σ) (host : String) (admin : AdminLogin) (login : String)
    (session : Session) (required : RequiredRoles) (change : RoleChange) (s : σ) :
    let given := outcomes (change.add.map fun role =>
      c.give session host admin login role (required[role]?.join)) s
    let taken := outcomes (change.remove.map fun role =>
      c.server.revokeRole session role login) given.2
    (c.finish host admin login (session, required, change)).outcome s =
      ((c.server.close session).outcome taken.2).map
        (·.map fun _ => errorsOf given.1 ++ errorsOf taken.1) id := by
  intro given taken
  rw [finish, outcome_bind_of_ok (gather_steps c session host admin login required change s)]
  cases hclose : c.server.close session taken.2 with
  | ok u t =>
      rw [outcome_bind_of_ok hclose, outcome_of_ok hclose]
      rfl
  | error e t =>
      rw [outcome_of_error (bind_of_error hclose), outcome_of_error hclose]
      rfl

/-- A run on a host comes to what is reported of it. -/
theorem outcome_convergeHost_eq (c : Converger σ) (login host : String)
    (accesses : List PlannedAccess) (s : σ) :
    (c.convergeHost login host accesses).outcome s =
      (Error.ofAll (c.faultsOn login host accesses s).1.reported,
        (c.faultsOn login host accesses s).2) := by
  rw [convergeHost_eq_opening, faultsOn]
  cases loginFor c.logins host with
  | error e => rfl
  | ok admin =>
      rw [Program.ofExcept, pure_bind, Error.outcome_mapError_failIf]
      dsimp only
      cases hopening : c.opening login host accesses admin s with
      | error e t =>
          rw [outcome_of_error (bind_of_error hopening)]
          rfl
      | ok found t =>
          obtain ⟨session, required, change⟩ := found
          rw [outcome_bind_of_ok hopening, outcome_finish]
          dsimp only [HostFaults.reported]
          generalize (c.server.close session).outcome _ = closed
          obtain ⟨closed, left⟩ := closed
          cases closed with
          | ok u => rfl
          | error e => rfl

/-- Runs on hosts one after the other come to what is reported of them. -/
theorem outcomes_convergeHost (c : Converger σ) (login : String)
    (hosts : List (String × List PlannedAccess)) (s : σ) :
    outcomes (hosts.map fun h => c.convergeHost login h.1 h.2) s =
      ((c.faultsOnAll login hosts s).1.map fun f => Error.ofAll f.reported,
        (c.faultsOnAll login hosts s).2) := by
  induction hosts generalizing s with
  | nil => rfl
  | cons h rest ih =>
      simp only [List.map_cons, outcomes, faultsOnAll, outcome_convergeHost_eq, ih]

theorem isSingle_of_faultsOnAll (hosts : List (String × List PlannedAccess)) (s : σ) :
    ∀ f ∈ (c.faultsOnAll login hosts s).1, ∀ e ∈ f.reported, e.IsSingle := by
  induction hosts generalizing s with
  | nil =>
      intro f hf
      cases hf
  | cons h rest ih =>
      rw [faultsOnAll, List.forall_mem_cons]
      exact ⟨isSingle_of_faultsOn, ih _⟩

/-- A run on all hosts reports what is reported of each. -/
theorem outcome_converge_eq (c : Converger σ) (login : String) (access : AccessMap) (s : σ) :
    (c.converge login access).outcome s =
      (Error.ofAll (errorsOf ((c.faultsOnAll login (c.byHost access).toList s).1.map
          fun f => Error.ofAll f.reported)),
        (c.faultsOnAll login (c.byHost access).toList s).2) := by
  let runs := (c.byHost access).toList.map fun h => c.convergeHost login h.1 h.2
  have hgather : (gather runs : Program σ Error (List Error)) s = _ := gather_eq_outcomes runs s
  rw [outcomes_convergeHost] at hgather
  rw [converge, outcome_bind_of_ok hgather]
  exact Error.outcome_failIf_combine _ _

theorem reports_converge (c : Converger σ) (login : String) (access : AccessMap) (s : σ) :
    Error.reports ((c.converge login access).outcome s).1 =
      (c.faultsOnAll login (c.byHost access).toList s).1.flatMap HostFaults.reported := by
  rw [outcome_converge_eq, Error.reports_ofAll, Error.flatMap_errorsOf, List.flatMap_map]
  refine List.flatMap_congr fun f hf => ?_
  rw [Error.reports_ofAll]
  exact Error.flatMap_parts_of_single (isSingle_of_faultsOnAll _ s f hf)

theorem isFlat_of_converge {access : AccessMap} {e : Error}
    (h : ((c.converge login access).outcome s).1 = .error e) : e.IsFlat := by
  have hparts : e.parts =
      (c.faultsOnAll login (c.byHost access).toList s).1.flatMap HostFaults.reported := by
    rw [← reports_converge, h]
    rfl
  intro part hpart
  rw [hparts] at hpart
  obtain ⟨f, hf, hmem⟩ := List.mem_flatMap.mp hpart
  exact isSingle_of_faultsOnAll _ s f hf part hmem

end Converger

/-! ## Errors of a user's access -/

namespace Granter

variable {σ : Type}

/-- The access of a user is worked on as far as its plan goes.  Then the errors of the plan are
reported, and that of the work. -/
theorem outcome_sync_eq {g : Granter σ} {now : Instant} {space sanitized : String}
    {reads : List AccessIntent} {writes : List WriteIntent} {s s₁ : σ} {plan : Plan}
    (hplan : (g.planner.plan now space reads writes : Program σ Error Plan) s = .ok plan s₁) :
    (g.sync now space sanitized reads writes).outcome s =
      (Error.ofAll (plan.errors ++ (errorOf ((g.converger.converge (g.loginRole sanitized)
          plan.access).outcome s₁).1).toList),
        ((g.converger.converge (g.loginRole sanitized) plan.access).outcome s₁).2) := by
  rw [sync, outcome_bind_of_ok hplan]
  cases hwork : g.converger.converge (g.loginRole sanitized) plan.access s₁ with
  | ok u t =>
      rw [outcome_bind_of_ok (attempt_of_ok hwork), outcome_of_ok hwork, errorOf,
        Option.toList_none, List.append_nil]
      exact Error.outcome_failIf_combine _ t
  | error e t =>
      rw [outcome_bind_of_ok (attempt_of_error hwork), outcome_of_error hwork]
      exact Error.outcome_failIf_combine _ t

/-- The access of a user reports the errors of the plan, and then what is reported of each host. -/
theorem reports_sync {g : Granter σ} {now : Instant} {space sanitized : String}
    {reads : List AccessIntent} {writes : List WriteIntent} {s s₁ : σ} {plan : Plan}
    (hplan : (g.planner.plan now space reads writes : Program σ Error Plan) s = .ok plan s₁) :
    Error.reports ((g.sync now space sanitized reads writes).outcome s).1 =
      plan.errors.flatMap Error.parts ++
        (g.converger.faultsOnAll (g.loginRole sanitized) (g.converger.byHost plan.access).toList
          s₁).1.flatMap HostFaults.reported := by
  rw [outcome_sync_eq hplan, Error.reports_ofAll, List.flatMap_append, Error.flatMap_errorOf,
    Converger.reports_converge]

theorem isFlat_of_sync {g : Granter σ} {now : Instant} {space sanitized : String}
    {reads : List AccessIntent} {writes : List WriteIntent} {s s₁ : σ} {plan : Plan} {e : Error}
    (hplan : (g.planner.plan now space reads writes : Program σ Error Plan) s = .ok plan s₁)
    (hflat : ∀ e ∈ plan.errors, e.IsFlat)
    (h : ((g.sync now space sanitized reads writes).outcome s).1 = .error e) : e.IsFlat := by
  rw [outcome_sync_eq hplan] at h
  refine Error.isFlat_of_ofAll h fun e' he' => ?_
  rcases List.mem_append.mp he' with hintent | hwork
  · exact hflat e' hintent
  · exact Converger.isFlat_of_converge (eq_error_of_mem hwork)

end Granter

/-! ## Updates of users -/

section Updates

variable {σ τ : Type} (settings : Settings) (around : Surroundings σ) (store : PolicyStore τ)
  (now : Instant) (space : String) (spec : UserSpec) (s : σ) (t : τ)

namespace Settings

/-- Gives a user its access, and no more. -/
def grantsOf : Program σ Error Unit :=
  (settings.services around now).granter.sync now space (sanitize spec.name) spec.read spec.write

/-- Gives a user its statement, and no more. -/
def statementOf : Program τ IamError Unit :=
  (Sharder.mk store settings.shard).ensure spec.name (sanitize spec.name)

/-- The errors of the intents of a user, in their order. -/
def intentErrors : List Error :=
  errorsOf ((settings.planner around).planEach now space none
    (Intent.ofUser spec.read spec.write) s).1

/-- What goes wrong on the hosts of the plan of a user, in their order. -/
def hostFaults (plan : Plan) : List HostFaults :=
  ((settings.converger around).faultsOnAll (settings.rolePrefix ++ sanitize spec.name)
    ((settings.converger around).byHost plan.access).toList s).1

/-- The error of the statement of a user, if there is one. -/
def statementErrors : List Error :=
  ((errorOf ((settings.statementOf store spec).outcome t).1).map Error.iam).toList

end Settings

/-- What an update of a user comes to, next to what its parts come to alone. -/
structure Services.SyncReport (stop : Except Error Unit × (σ × τ)) : Prop where
  /-- The surroundings are left as by the work on the access alone. -/
  surroundings : stop.2.1 = ((settings.grantsOf around now space spec).outcome s).2
  /-- The policies are left as by the work on the statement alone. -/
  policies : stop.2.2 = ((settings.statementOf store spec).outcome t).2
  /-- It succeeds when both do. -/
  ok_iff : stop.1 = .ok () ↔ ((settings.grantsOf around now space spec).outcome s).1 = .ok () ∧
    ((settings.statementOf store spec).outcome t).1 = .ok ()
  /-- Its error is flat, unless the inventory has one that is not. -/
  flat : (∀ s e s', around.inventory space s = .error e s' → e.IsFlat) →
    ∀ e, stop.1 = .error e → e.IsFlat
  /-- It reports the errors of the intents in order, then those of each host in the order of the
  bytes of the hosts, and then that of the statement.  On a host this is all exactly if no session
  in which something has failed could not be closed. -/
  reports : ∃ plan s₁,
    ((settings.planner around).plan now space spec.read spec.write : Program σ Error Plan) s =
      .ok plan s₁ ∧
    plan.errors = settings.intentErrors around now space spec s ∧
    (((settings.converger around).byHost plan.access).toList.map (·.1)).Pairwise
      (fun a b => Text.toUtf8 a.toList < Text.toUtf8 b.toList) ∧
    Error.reports stop.1 = plan.errors.flatMap Error.parts ++
      (settings.hostFaults around spec s₁ plan).flatMap HostFaults.reported ++
        settings.statementErrors store spec t ∧
    (Error.reports stop.1 = plan.errors.flatMap Error.parts ++
        (settings.hostFaults around spec s₁ plan).flatMap HostFaults.all ++
          settings.statementErrors store spec t ↔
      ∀ f ∈ settings.hostFaults around spec s₁ plan, f.closing = none ∨ f.work = [])

namespace Services

/-- An update of a user works on its access and on its statement, whatever either comes to. -/
theorem outcome_syncUser (hname : spec.name.isEmpty = false) :
    ((settings.services (around.withStore store) now).syncUser space spec).outcome (s, t) =
      (Error.ofAll ((errorOf ((settings.grantsOf around now space spec).outcome s).1).toList ++
          settings.statementErrors store spec t),
        (((settings.grantsOf around now space spec).outcome s).2,
          ((settings.statementOf store spec).outcome t).2)) := by
  let grants := (settings.services (around.withStore store) now).granter.sync now space
    (sanitize spec.name) spec.read spec.write
  let ensure := (settings.services (around.withStore store) now).sharder.ensure spec.name
    (sanitize spec.name)
  have hgrants : Agree _ grants (settings.grantsOf around now space spec) (s, t) s :=
    settings.related_grants around store now t space spec (s, t) s rfl
  have hensure : Agree _ ensure (settings.statementOf store spec)
      (((settings.grantsOf around now space spec).outcome s).2, t) t :=
    settings.related_statement around store now _ spec.name (sanitize spec.name) _ t rfl
  have hboth := Error.outcome_gather_pair grants (Program.mapError Error.iam ensure) (s, t)
  rw [hgrants.1, hgrants.2, errorOf_outcome_mapError, outcome_mapError, hensure.1, hensure.2]
    at hboth
  unfold syncUser
  rw [hname]
  exact hboth

theorem isSingle_of_statementErrors :
    ∀ e ∈ settings.statementErrors store spec t, e.IsSingle := by
  intro e he
  obtain ⟨e', -, rfl⟩ := Option.map_eq_some_iff.mp (Option.mem_toList.mp he)
  intro errors herrors
  cases herrors

/-- Whatever fails on the way, an update of a user with a name does all that its two parts do, and
reports their errors in order.  It reports all of them exactly if no session in which something has
failed could not be closed. -/
theorem syncUser_reports (hname : spec.name.isEmpty = false) :
    SyncReport settings around store now space spec s t
      (((settings.services (around.withStore store) now).syncUser space spec).outcome (s, t)) := by
  obtain ⟨plan, hplan, herrors⟩ :=
    (settings.planner around).plan_eq_planEach now space spec.read spec.write s
  have hstatement := isSingle_of_statementErrors settings store spec t
  have hgrants : Error.reports ((settings.grantsOf around now space spec).outcome s).1 =
      plan.errors.flatMap Error.parts ++
        (settings.hostFaults around spec _ plan).flatMap HostFaults.reported :=
    Granter.reports_sync (g := (settings.services around now).granter) hplan
  rw [outcome_syncUser settings around store now space spec s t hname]
  constructor
  · rfl
  · rfl
  · rw [Error.ofAll_eq_ok_iff, List.append_eq_nil_iff, Settings.statementErrors,
      Option.toList_eq_nil_iff, Option.toList_eq_nil_iff, Option.map_eq_none_iff,
      errorOf_eq_none_iff, errorOf_eq_none_iff]
  · intro hinventory e he
    refine Error.isFlat_of_ofAll he fun e' he' => ?_
    rcases List.mem_append.mp he' with hgranted | hiam
    · refine Granter.isFlat_of_sync (g := (settings.services around now).granter) hplan
        (fun e hintent => ?_) (eq_error_of_mem hgranted)
      rw [herrors] at hintent
      exact Planner.isFlat_of_planEach hinventory _ s e hintent
    · exact (hstatement e' hiam).isFlat
  · refine ⟨plan, _, hplan, herrors, Converger.sorted_byHost _ _, ?_⟩
    rw [Error.reports_ofAll, List.flatMap_append, Error.flatMap_errorOf, hgrants,
      Error.flatMap_parts_of_single hstatement]
    refine ⟨rfl, ?_⟩
    rw [List.append_cancel_right_eq, List.append_cancel_left_eq]
    exact HostFaults.flatMap_reported_eq_iff _

end Services

end Updates

/-! ## A session that cannot be closed -/

/-- A user who may read the orders. -/
def ordersReader : UserSpec where
  name := "bob"
  read := [ordersIntent]

/-- A cluster that refuses to give the role that reads the orders. -/
def refusingCluster : Cluster where
  failures := [("GRANT orders_read TO", "42501")]

/-- Looks up and works as in the shop. -/
def shopSurroundings : Surroundings Cluster := Lookups.shopLookups.surroundings

/-- The same, but the sessions in the database of the administrators cannot be closed. -/
def lossySurroundings : Surroundings Cluster :=
  { shopSurroundings with
    server :=
      { Cluster.server with
        close := fun session =>
          if session.database = "postgres" then throw (.database "08006" "connection lost")
          else pure () } }

/-- Brings the reader about, and lists the texts of what is reported. -/
def reportOf (around : Surroundings Cluster) (m : PolicyMemory) : List String :=
  (Error.reports (((shopSettings.services (around.withStore PolicyMemory.store)
    writeCall.now).syncUser "shop" ordersReader).outcome (refusingCluster, m)).1).map Error.message

/-- A role that is not given and a policy that is not attached are both reported. -/
theorem reader_reports_both :
    ordersReader.name.isEmpty = false ∧
      (reportOf shopSurroundings { failures := [.attach] }).length = 2 ∧
      Services.SyncReport shopSettings shopSurroundings PolicyMemory.store writeCall.now "shop"
        ordersReader refusingCluster { failures := [.attach] }
        (((shopSettings.services (shopSurroundings.withStore PolicyMemory.store)
          writeCall.now).syncUser "shop" ordersReader).outcome
            (refusingCluster, { failures := [.attach] })) :=
  ⟨by decide, by decide +kernel, Services.syncUser_reports shopSettings shopSurroundings
    PolicyMemory.store writeCall.now "shop" ordersReader refusingCluster _ (by decide)⟩

/-- When the session cannot be closed, the role that is not given is missing from the report. -/
theorem refusal_lost_on_close :
    ∃ plan s₁, ((shopSettings.planner lossySurroundings).plan writeCall.now "shop"
        ordersReader.read ordersReader.write : Program Cluster Error Plan) refusingCluster =
          .ok plan s₁ ∧
      (plan.errors.flatMap Error.parts ++
        (shopSettings.hostFaults lossySurroundings ordersReader s₁ plan).flatMap HostFaults.all ++
          shopSettings.statementErrors PolicyMemory.store ordersReader {}).map Error.message =
        ["GRANT orders_read TO bob failed (SQLSTATE 42501)", "connection lost (SQLSTATE 08006)"] ∧
      reportOf lossySurroundings {} = ["connection lost (SQLSTATE 08006)"] :=
  ⟨_, _, rfl, by decide +kernel, by decide +kernel⟩

end PgSteward
