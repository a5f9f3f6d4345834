import PgSteward.Proofs.GrantRuns
import PgSteward.Proofs.PlanLookups
import PgSteward.Proofs.RoleOutcomes

/-!
# Look-ups that come to fail

An intent whose look-ups fail comes to nothing, and the plan goes on without it.  The roles follow
the plan as far as it goes, so they cannot tell an intent that could not be looked up from one that
is gone.

`Lookups.managed_roles_kept_iff` says when a login role keeps its managed roles, although look-ups
have come to fail since they were given: when what the other intents still come to needs all those
that could be taken away.
-/

namespace PgSteward

open Program

/-! ## Runs one after the other -/

/-- Whether the end of a membership succeeds on a cluster. -/
def Cluster.Revocable (s : Cluster) (role login : String) : Prop :=
  ∃ session, (Cluster.server.revokeRole session role login).succeeds s = true

namespace Converger

variable {c : Converger Cluster} {login host role : String} {s t : Cluster}

/-- After a successful run the managed roles are those that are needed. -/
theorem mem_rolesOf_iff_of_managed (hc : c.server = Cluster.server)
    {accesses : List PlannedAccess}
    (hok : c.convergeHost login host accesses s = .ok () t) (hmanaged : isManagedRole role = true) :
    role ∈ t.catalog.rolesOf login ↔ role ∈ RequiredRoles.onHost c.staticRoles accesses := by
  rw [rolesOf_convergeHost (hc.trans Cluster.server_eq_refusing) hok, if_pos rfl, hmanaged]
  simp [ne_on_of_isManagedRole hmanaged]

/-- After a successful run, another run leaves a managed role exactly when it is still needed or
cannot be taken away. -/
theorem mem_rolesOf_rerun_iff (hc : c.server = Cluster.server)
    {accesses accesses' : List PlannedAccess}
    (hok : c.convergeHost login host accesses s = .ok () t)
    (hnone : accesses = [] → accesses' = []) (hmanaged : isManagedRole role = true)
    (hheld : role ∈ t.catalog.rolesOf login) :
    role ∈ ((c.convergeHost login host accesses').outcome t).2.catalog.rolesOf login ↔
      (s.Revocable role login → role ∈ RequiredRoles.onHost c.staticRoles accesses') := by
  obtain ⟨admin, hlogin, hsucceeds⟩ := reaches_of_ok hc hok
  have hbesides : t.besides login = s.besides login :=
    (keeps_besides_convergeHost hc accesses).of_ok hok
  have hreaches : c.Reaches login host accesses' admin t := by
    refine ⟨hlogin, ?_⟩
    rw [succeeds_require] at hsucceeds ⊢
    rcases Bool.or_eq_true .. |>.mp hsucceeds with hempty | hmade
    · rw [hnone (List.isEmpty_iff.mp hempty)]
      rfl
    · rw [hc] at hmade ⊢
      rw [← succeedsBy_ensureRole s t hbesides.symm, hmade, Bool.or_true]
  have hrevocable : (Cluster.server.revokeRole (c.adminSession host admin) role login).succeeds t =
      true ↔ s.Revocable role login := by
    rw [succeedsBy_revokeRole t s hbesides]
    constructor
    · exact fun h => ⟨_, h⟩
    · rintro ⟨session, h⟩
      rwa [succeeds_revokeRole_session (c.adminSession host admin) session]
  rw [rolesOf_outcome hc hreaches, if_pos rfl, hrevocable]
  by_cases hneeded : role ∈ RequiredRoles.onHost c.staticRoles accesses'
  · simp [hheld, hneeded]
  · simp [hheld, hneeded, hmanaged]

end Converger

/-! ## Calls one after the other -/

namespace Granter

variable {σ : Type} {g : Granter σ} {now : Instant} {space sanitized : String}
  {reads : List AccessIntent} {writes : List WriteIntent}

/-- A call leaves what its plan leaves. -/
theorem outcome_sync {plan : Plan} {s t : σ}
    (hplan : (g.planner.plan now space reads writes : Program σ Error Plan) s = .ok plan t) :
    ((g.sync now space sanitized reads writes).outcome s).2 =
      ((g.converger.converge (g.loginRole sanitized) plan.access).outcome t).2 := by
  unfold sync
  rw [outcome, bind_of_ok hplan]
  cases hrun : g.converger.converge (g.loginRole sanitized) plan.access t with
  | ok u v =>
      rw [bind_of_ok (attempt_of_ok hrun), outcome, hrun]
      exact outcome_failIf _ v
  | error e v =>
      rw [bind_of_ok (attempt_of_error hrun), outcome, hrun]
      exact outcome_failIf _ v

end Granter

namespace Lookups

/-- Gives access by what is looked up. -/
def granter (l : Lookups) (static : List String) (adminDatabase rolePrefix : String) :
    Granter Cluster where
  planner := l.planner
  converger := .inMemory l.logins static adminDatabase
  rolePrefix := rolePrefix

/-- After a successful call for a user, and with look-ups failing since, another call for the same
intents leaves the login role its managed roles exactly when all that can be taken away are still
needed for what the intents come to now. -/
theorem managed_roles_kept_iff (l l' : Lookups) (static : List String)
    (adminDatabase rolePrefix host space sanitized : String) (now now' : Instant)
    (reads : List AccessIntent) (writes : List WriteIntent) (s t : Cluster)
    (hsingle : l.logins.keys = [host]) (hloses : l.Loses l')
    (hactive : ∀ intent ∈ Intent.ofUser reads writes,
      intent.access.isActive now' = intent.access.isActive now)
    (hfirst : (l.granter static adminDatabase rolePrefix).sync now space sanitized reads writes s =
      .ok () t) :
    (∀ r, isManagedRole r = true → r ∈ t.catalog.rolesOf (rolePrefix ++ sanitized) →
      r ∈ (((l'.granter static adminDatabase rolePrefix).sync now' space sanitized reads
        writes).outcome t).2.catalog.rolesOf (rolePrefix ++ sanitized)) ↔
    ∀ r, isManagedRole r = true →
      r ∈ RequiredRoles.onHost static (l.planned now space (Intent.ofUser reads writes)) →
      s.Revocable r (rolePrefix ++ sanitized) →
      r ∈ RequiredRoles.onHost static (l'.planned now' space (Intent.ofUser reads writes)) := by
  let c := Converger.inMemory l.logins static adminDatabase
  let login := rolePrefix ++ sanitized
  have hc : c.server = Cluster.server := rfl
  obtain ⟨plan, hplan, hmem⟩ : ∃ plan, ((l.planner : Planner Cluster).plan now space reads writes :
      Program Cluster Error Plan) s = .ok plan s ∧ ∀ a, a ∈ plan.access.all ↔
        a ∈ l.planned now space (Intent.ofUser reads writes) := l.plan_ok ..
  obtain ⟨plan', hplan', hmem'⟩ : ∃ plan', ((l'.planner : Planner Cluster).plan now' space reads
      writes : Program Cluster Error Plan) t = .ok plan' t ∧ ∀ a, a ∈ plan'.access.all ↔
        a ∈ l'.planned now' space (Intent.ofUser reads writes) := l'.plan_ok ..
  have hrun : c.converge login plan.access s = .ok () t := by
    let call : SyncCall := { granter := l.granter static adminDatabase rolePrefix, now, space,
                             sanitized, reads, writes }
    have hcall : call.run s = .ok () t := hfirst
    obtain ⟨found, s₁, hfound, -, hrun⟩ := SyncCall.run_ok hcall
    cases hplan.symm.trans hfound
    exact hrun
  have hall : ∀ a ∈ plan.access.all, a.host = host := fun a ha =>
    (Converger.mem_logins_iff_of_single hsingle).mp
      (Converger.mem_logins_of_converge_ok Cluster.server_eq_refusing hrun ha)
  have hsub : ∀ a ∈ plan'.access.all, a ∈ plan.access.all := by
    intro a ha
    rw [hmem', planned_congr hactive] at ha
    exact (hmem a).mpr ((hloses.planned_sublist now space _).subset ha)
  have hhost := Converger.converge_single_ok Cluster.server_eq_refusing hsingle hrun
  have hheld : ∀ r, isManagedRole r = true → (r ∈ t.catalog.rolesOf login ↔
      r ∈ RequiredRoles.onHost static (l.planned now space (Intent.ofUser reads writes))) := by
    intro r hr
    rw [Converger.mem_rolesOf_iff_of_managed hc hhost hr]
    exact RequiredRoles.mem_onHost_congr hmem r
  -- No host comes in with the second plan, so that both are worked off on the one host.
  have hsecond : (((l'.granter static adminDatabase rolePrefix).sync now' space sanitized reads
      writes).outcome t).2 = ((c.convergeHost login host plan'.access.all).outcome t).2 := by
    rw [Granter.outcome_sync hplan', ← Converger.outcome_converge_single hsingle fun a ha =>
      hall a (hsub a ha)]
    rw [granter, hloses.logins]
    rfl
  have hnone : plan.access.all = [] → plan'.access.all = [] := fun hnil =>
    List.eq_nil_iff_forall_not_mem.mpr fun a ha => by simpa [hnil] using hsub a ha
  rw [hsecond]
  refine forall_congr' fun r => forall_congr' fun hr => ?_
  rw [hheld r hr]
  refine forall_congr' fun hneeded => ?_
  rw [Converger.mem_rolesOf_rerun_iff hc hhost hnone hr ((hheld r hr).mpr hneeded)]
  exact forall_congr' fun _ => RequiredRoles.mem_onHost_congr hmem' r

/-! ## A config map that cannot be read -/

/-- A config map that names the orders. -/
def shopLookups : Lookups where
  logins := oneHost
  flags := {}
  text := fun kind space key =>
    if kind = .configMap ∧ space = "shop" ∧ key = ⟨"db", "name"⟩ then .ok "orders"
    else .error (.notFound kind space key.name)
  credentials := fun _ _ => .ok none
  databases := fun _ => .ok []

/-- No object can be read. -/
def lostLookups : Lookups :=
  { shopLookups with
    text := fun kind space key => .error (.unreadable kind space key.name "unavailable") }

theorem shopLookups_loses : shopLookups.Loses lostLookups where
  logins := rfl
  flags := rfl
  text := fun _ _ _ => .inr ⟨_, rfl, rfl⟩
  credentials := fun _ _ => .inl rfl
  databases := fun _ => .inl rfl

/-- The orders, by the config map. -/
def ordersByReference : AccessIntent :=
  { host := { value := "db:5432" }, database := .configMap "db" "name" }

/-- Another intent that needs the role keeps it. -/
theorem role_kept_for_other_intent :
    shopLookups.logins.keys = ["db:5432"] ∧ shopLookups.Loses lostLookups ∧
      ∃ t, (shopLookups.granter [] "postgres" "").sync writeCall.now "shop" "bob"
          [ordersByReference, ordersIntent] [] {} = .ok () t ∧
        "orders_read" ∈ t.catalog.rolesOf "bob" ∧
        ∀ r, isManagedRole r = true → r ∈ t.catalog.rolesOf "bob" →
          r ∈ (((lostLookups.granter [] "postgres" "").sync writeCall.now "shop" "bob"
            [ordersByReference, ordersIntent] []).outcome t).2.catalog.rolesOf "bob" := by
  have hsingle : shopLookups.logins.keys = ["db:5432"] := by decide +kernel
  have hfirst := Program.ok_of_succeeds
    (p := (shopLookups.granter [] "postgres" "").sync writeCall.now "shop" "bob"
      [ordersByReference, ordersIntent] []) (s := {}) (by decide +kernel)
  refine ⟨hsingle, shopLookups_loses, _, hfirst, by decide +kernel, ?_⟩
  refine (managed_roles_kept_iff shopLookups lostLookups [] "postgres" "" "db:5432" "shop" "bob"
    writeCall.now writeCall.now [ordersByReference, ordersIntent] [] {} _ hsingle shopLookups_loses
    (fun _ _ => rfl) hfirst).mpr ?_
  intro r _ hneeded _
  have hsame : ∀ r ∈ (RequiredRoles.onHost [] (shopLookups.planned writeCall.now "shop"
      (Intent.ofUser [ordersByReference, ordersIntent] []))).keys,
      r ∈ (RequiredRoles.onHost [] (lostLookups.planned writeCall.now "shop"
        (Intent.ofUser [ordersByReference, ordersIntent] []))).keys := by decide +kernel
  exact Std.ExtTreeMap.mem_keys.mp (hsame r (Std.ExtTreeMap.mem_keys.mpr hneeded))

/-- A role that only the lost intent needs is taken away. -/
theorem role_lost_with_intent :
    shopLookups.logins.keys = ["db:5432"] ∧ shopLookups.Loses lostLookups ∧
      ∃ t, (shopLookups.granter [] "postgres" "").sync writeCall.now "shop" "bob"
          [ordersByReference] [] {} = .ok () t ∧
        ¬∀ r, isManagedRole r = true → r ∈ t.catalog.rolesOf "bob" →
          r ∈ (((lostLookups.granter [] "postgres" "").sync writeCall.now "shop" "bob"
            [ordersByReference] []).outcome t).2.catalog.rolesOf "bob" := by
  have hfirst := Program.ok_of_succeeds
    (p := (shopLookups.granter [] "postgres" "").sync writeCall.now "shop" "bob"
      [ordersByReference] []) (s := {}) (by decide +kernel)
  refine ⟨by decide +kernel, shopLookups_loses, _, hfirst, fun hkept => ?_⟩
  have hlost := hkept "orders_read" (by decide) (by decide +kernel)
  revert hlost
  decide +kernel

end Lookups

end PgSteward
