import PgSteward.Proofs.ProvisionRepair

/-!
# Making a database again

A call that has succeeded is made again on what it has left.  Every step has been done by then, and
the step for the previous owner is no longer among them, since a shared database is the manager
role's by now (`done_again`).  So the second call succeeds, and changes nothing
(`run_again_of_ok`).  This holds on a server that refuses circles as well: a membership of the first
call may stand in the way of a later one, but then the first call has failed of it.
-/

namespace PgSteward

namespace Cluster

open ProvisionStep

variable {strict : Bool} {c : Catalog} {admin : String} {target : DatabaseTarget}
  {m r d : Identifier} {es : List Identifier}

/-- When all steps to a database have been taken, none is left to do for a second call. -/
theorem done_again (hd : d.name = target.name)
    (hpasses : Passes strict c (allSteps c admin target m r d es)) :
    ∀ step ∈ allSteps (after strict c (allSteps c admin target m r d es)) admin target m r d es,
      step.Done strict (after strict c (allSteps c admin target m r d es)) := by
  set c' := after strict c (allSteps c admin target m r d es) with hc'
  have hdone : ∀ step ∈ allSteps c admin target m r d es, step.Done strict c' :=
    done_after allSteps_pairwise hpasses
  have hhead : ∀ step ∈ headSteps admin target m r d, step.Done strict c' := fun step hstep =>
    hdone step (List.mem_append_left _ hstep)
  have howner : c'.databases[d.name]? = some (if target.shared then m.name else r.name) :=
    hhead (.owner d.name (if target.shared then m.name else r.name)) (by simp [headSteps])
  have hprevious : previousSteps c' admin target m r = [] := by
    refine previousSteps_eq_nil ?_
    cases hshared : target.shared with
    | false => exact .inr rfl
    | true =>
        rw [hshared, if_pos rfl, hd] at howner
        exact .inl howner
  intro step hstep
  rw [allSteps, hprevious, List.nil_append] at hstep
  rcases List.mem_append.mp hstep with hstep | hstep
  · exact hhead step hstep
  · exact hdone step (List.mem_append_right _ (List.mem_append_right _ hstep))

end Cluster

namespace ProvisionCall

open Cluster

variable {call : ProvisionCall} {s t : Cluster}

/-- A call that has succeeded on a server without failing statements succeeds again, and leaves the
catalog as it is. -/
theorem run_again_of_ok (hs : s.failures = []) (hrun : call.run Cluster.server s = .ok () t) :
    ∃ u, call.run Cluster.server t = .ok () u ∧ u.catalog = t.catalog := by
  obtain ⟨m, r, d, es, hm, hr, hd, hes⟩ := names_of_ok hrun
  obtain ⟨hrules, hpasses, hcatalog⟩ :=
    (follows_run_of_no_failures hs hm hr hd hes).ok () t hrun
  have hdone := done_again hd hpasses
  rw [← hcatalog, ← hrules.1] at hdone
  obtain ⟨hagain, hsame⟩ := ProvisionStep.after_of_done hdone
  have ht : t.failures = [] := hrules.2.trans hs
  obtain ⟨hsucceeds, hfinish⟩ :=
    (follows_run_of_no_failures ht hm hr hd hes).finish (spares_of_no_failures ht)
  refine ⟨_, Program.ok_of_succeeds (hsucceeds.mpr hagain), ?_⟩
  rw [hfinish, ProvisionStep.finish_of_passes hagain, hsame]

/-- The orders are shared again on a server that refuses circles, with the same catalog. -/
theorem ordersCall_run_again :
    ∃ t u, ({ legacyCluster with strict := true } : Cluster).failures = [] ∧
      ordersCall.run Cluster.server { legacyCluster with strict := true } = .ok () t ∧
      ordersCall.run Cluster.server t = .ok () u ∧ u.catalog = t.catalog := by
  have hrun := Program.ok_of_succeeds (p := ordersCall.run Cluster.server)
    (s := { legacyCluster with strict := true }) (by decide +kernel)
  obtain ⟨u, hagain, hsame⟩ := run_again_of_ok rfl hrun
  exact ⟨_, u, rfl, hrun, hagain, hsame⟩

end ProvisionCall

end PgSteward
