import Mathlib.Tactic.Set
import PgSteward.Policy.Shard
import PgSteward.Proofs.NameMaps
import PgSteward.Proofs.PolicyMemoryCalls

/-!
# Work on the shard in memory

What the parts of `Sharder.ensure` and `Sharder.remove` do to a store in memory.  A policy gets
other statements in one version that takes the place of the default (`replaceStatements_run`).
Attaching keeps the contents, and leaves the policy attached to all login roles when it succeeds
(`attachMissing_ok`).  Discarding a policy removes it or keeps the contents (`discard_ok`,
`discard_error`).
-/

namespace PgSteward

namespace Sharder

/-- The shard over a store in memory. -/
def inMemory (s : ShardSettings) : Sharder PolicyMemory := ⟨PolicyMemory.store, s⟩

variable {s : ShardSettings} {m n : PolicyMemory} {arn : String} {p : StoredPolicy}

open PolicyMemory

/-! ## Statements -/

/-- A policy gets other statements. -/
theorem replaceStatements_run {policy : ManagedPolicy} (statements : List PolicyStatement)
    (h : m.policies[policy.arn]? = some p) (hdefault : policy.versionId = p.defaultVersion)
    (hp : p.WellFormed) :
    (inMemory s).replaceStatements policy statements m = .ok ()
      (m.counted.counted.withPolicy policy.arn
        (p.replaced { policy.document with statements })) := by
  set added := p.addVersion { policy.document with statements } with hadded
  have hcreate : createVersion policy.arn { policy.document with statements } m =
      .ok added.defaultVersion (m.counted.withPolicy policy.arn added) :=
    createVersion_of_some _ h hp.room
  have hthere : (m.counted.withPolicy policy.arn added).policies[policy.arn]? = some added := by
    simp
  have hother : added.defaultVersion ≠ policy.versionId := by
    rw [hdefault]
    exact hp.default_ne_next.symm
  have hdelete := deleteVersion_of_some hthere hother
  rw [replaceStatements]
  refine (Program.bind_of_ok hcreate).trans (hdelete.trans ?_)
  rw [hdefault]
  congr 1
  exact withPolicy_withPolicy m.counted.counted policy.arn added _

/-! ## Attachments -/

/-- Attaching changes nothing but attachments. -/
theorem keeps_attachMissing (arn : String) :
    Program.Keeps contents ((inMemory s).attachMissing arn) := by
  refine Program.keeps_bind (fun m => ?_) fun attached => Program.keeps_sequence ?_
  · obtain ⟨roles, h⟩ := attachedRoles_run m arn
    have hrun : (inMemory s).store.attachedRoles arn m = .ok roles m := h
    rw [Program.outcome, hrun]
  · intro call hcall
    obtain ⟨role, -, rfl⟩ := List.mem_map.mp hcall
    exact keeps_attach role arn

/-- A policy is attached to one role after the other, when no attachment has been told to fail. -/
theorem attaches_run (roles : List String) (h : m.policies[arn]? = some p)
    (hfail : .attach ∉ m.failures) :
    ∃ n, Program.sequence (roles.map fun role => (inMemory s).store.attach role arn) m =
        .ok () n ∧ n.policies = m.policies.insert arn (p.attachedTo roles) ∧
      n.failures = m.failures := by
  induction roles generalizing m p with
  | nil => exact ⟨m, rfl, (NameMap.insert_eq_self h).symm, rfl⟩
  | cons role rest ih =>
      set attached : StoredPolicy := { p with attached := p.attached.insert role } with hattached
      obtain ⟨n, hrun, hn, hfailures⟩ := ih (m := m.counted.withPolicy arn attached)
        (p := attached) (by simp) hfail
      refine ⟨n, (Program.bind_of_ok (attach_of_some h hfail)).trans hrun, ?_, hfailures⟩
      rw [hn, withPolicy_policies, counted_policies, NameMap.insert_insert, hattached]
      simp [StoredPolicy.attachedTo, Std.ExtTreeSet.insertMany_cons]

/-- A policy is attached to the login roles, unless it lacks one and the next attachment has been
told to fail.  In this case nothing changes. -/
theorem attachMissing_cases (h : m.policies[arn]? = some p) :
    (∃ n, (inMemory s).attachMissing arn m = .ok () n ∧
        n.policies = m.policies.insert arn (p.attachedTo s.loginRoles) ∧
        n.failures = m.failures) ∨
      .attach ∈ m.failures ∧ ∃ n,
        (inMemory s).attachMissing arn m = .error (injected .attach) n ∧
        n.policies = m.policies ∧ n.failures = m.failures.erase .attach := by
  have hroles : (inMemory s).store.attachedRoles arn m = .ok p.attached.toList m :=
    attachedRoles_of_some h
  rw [attachMissing, Program.bind_of_ok hroles, show (inMemory s).settings = s from rfl,
    ← p.attachedTo_filter]
  by_cases hfail : .attach ∈ m.failures
  · cases s.loginRoles.filter fun role => !p.attached.toList.contains role with
    | nil => exact .inl ⟨m, rfl, (NameMap.insert_eq_self h).symm, rfl⟩
    | cons role rest =>
        have hattach : (inMemory s).store.attach role arn m = .error (injected .attach)
            { m with failures := m.failures.erase .attach } := by
          show attach role arn m = _
          rw [attach, Program.bind_of_error (failNext_of_mem hfail)]
        exact .inr ⟨hfail, _, Program.bind_of_error hattach, rfl, rfl⟩
  · exact .inl (attaches_run _ h hfail)

/-- A policy that has been attached to the missing roles is attached to all login roles. -/
theorem attachMissing_ok (h : m.policies[arn]? = some p)
    (hrun : (inMemory s).attachMissing arn m = .ok () n) :
    ∃ q, n.policies[arn]? = some q ∧ ∀ role ∈ s.loginRoles, role ∈ q.attached := by
  rcases attachMissing_cases (s := s) h with ⟨n', hok, hn, -⟩ | ⟨-, n', herror, -⟩
  · cases hok.symm.trans hrun
    refine ⟨p.attachedTo s.loginRoles, by simp [hn], fun role hrole => ?_⟩
    exact StoredPolicy.mem_attachedTo.mpr (.inr hrole)
  · cases herror.symm.trans hrun

/-! ## Discarding a policy -/

/-- A role is released, when no detachment has been told to fail. -/
theorem release_of_some (role : String) (h : m.policies[arn]? = some p)
    (hfail : .detach ∉ m.failures) :
    ∃ n, (inMemory s).release arn role m = .ok () n ∧
      n.policies = (m.afterDetach arn role p).policies ∧ n.failures = m.failures := by
  obtain ⟨n, hpolicies, hfailures, hok | herror⟩ := detach_of_some role h hfail
  · exact ⟨n, Program.bind_of_ok (Program.attempt_of_ok hok), hpolicies, hfailures⟩
  · exact ⟨n, Program.bind_of_ok (Program.attempt_of_error herror), hpolicies, hfailures⟩

/-- A role is not released, when the next detachment has been told to fail. -/
theorem release_of_mem (arn role : String) (hfail : .detach ∈ m.failures) :
    (inMemory s).release arn role m = .error (injected .detach)
      { m with failures := m.failures.erase .detach } := by
  have hdetach : detach role arn m = .error (injected .detach)
      { m with failures := m.failures.erase .detach } := by
    rw [detach, Program.bind_of_error (failNext_of_mem hfail)]
  exact Program.bind_of_ok (Program.attempt_of_error hdetach)

/-- When roles have been released, the policy is attached to the others only. -/
theorem releases_run (roles : List String) (h : m.policies[arn]? = some p)
    (hfail : .detach ∉ m.failures) :
    ∃ (n : PolicyMemory) (left : NameSet),
      Program.sequence (roles.map ((inMemory s).release arn)) m = .ok () n ∧
      n.policies = m.policies.insert arn { p with attached := left } ∧
      n.failures = m.failures ∧ ∀ role, role ∈ left ↔ role ∈ p.attached ∧ role ∉ roles := by
  induction roles generalizing m p with
  | nil => exact ⟨m, p.attached, rfl, (NameMap.insert_eq_self h).symm, rfl, by simp⟩
  | cons role rest ih =>
      obtain ⟨m', hcall, hpolicies, hfailures⟩ := release_of_some (s := s) role h hfail
      have hthere : m'.policies[arn]? = some { p with attached := p.attached.erase role } := by
        rw [hpolicies, afterDetach]
        simp
      obtain ⟨n, left, hrun, hleft, hsame, hmem⟩ := ih hthere (hfailures ▸ hfail)
      refine ⟨n, left, (Program.bind_of_ok hcall).trans hrun, ?_, hsame.trans hfailures,
        fun other => ?_⟩
      · rw [hleft, hpolicies, afterDetach, withPolicy_policies, NameMap.insert_insert]
      · rw [hmem, Std.ExtTreeSet.mem_erase, List.mem_cons]
        by_cases hother : role = other
        · simp [hother]
        · have hne : other ≠ role := fun e => hother e.symm
          simp [hother, hne]

/-- A policy is discarded, unless it is attached to a role and the next detachment has been told to
fail.  In this case nothing changes. -/
theorem discard_cases (h : m.policies[arn]? = some p) :
    (∃ n, (inMemory s).discard arn m = .ok () n ∧ n.policies = m.policies.erase arn ∧
        n.failures = m.failures) ∨
      .detach ∈ m.failures ∧ ∃ n, (inMemory s).discard arn m = .error (injected .detach) n ∧
        n.policies = m.policies ∧ n.failures = m.failures.erase .detach := by
  have hroles : (inMemory s).store.attachedRoles arn m = .ok p.attached.toList m :=
    attachedRoles_of_some h
  rw [discard, Program.bind_of_ok hroles]
  by_cases hfail : .detach ∈ m.failures
  · cases hattached : p.attached.toList with
    | nil =>
        have hfree : p.attached = ∅ := by
          rw [Std.ExtTreeSet.eq_empty_iff_forall_not_mem]
          intro role hrole
          rw [← Std.ExtTreeSet.mem_toList, hattached] at hrole
          cases hrole
        exact .inl ⟨_, delete_of_some h hfree, rfl, rfl⟩
    | cons role rest =>
        have hrelease := release_of_mem (s := s) arn role hfail
        exact .inr ⟨hfail, _, Program.bind_of_error (Program.bind_of_error hrelease), rfl, rfl⟩
  · left
    obtain ⟨m', left, hrun, hleft, hfailures, hmem⟩ :=
      releases_run (s := s) p.attached.toList h hfail
    have hfree : left = ∅ := by
      rw [Std.ExtTreeSet.eq_empty_iff_forall_not_mem]
      intro role hrole
      obtain ⟨hhas, hnot⟩ := (hmem role).mp hrole
      exact hnot (Std.ExtTreeSet.mem_toList.mpr hhas)
    have hthere : m'.policies[arn]? = some { p with attached := left } := by
      rw [hleft]
      simp
    refine ⟨_, (Program.bind_of_ok hrun).trans (delete_of_some hthere hfree), ?_, hfailures⟩
    show m'.policies.erase arn = _
    rw [hleft]
    exact NameMap.erase_insert ..

/-- A policy that has been discarded is gone. -/
theorem discard_ok (h : m.policies[arn]? = some p)
    (hrun : (inMemory s).discard arn m = .ok () n) : n.policies = m.policies.erase arn := by
  rcases discard_cases (s := s) h with ⟨n', hok, hn, -⟩ | ⟨-, n', herror, -⟩
  · cases hok.symm.trans hrun
    exact hn
  · cases herror.symm.trans hrun

/-- A policy that could not be discarded has its statements still. -/
theorem discard_error {e : IamError} (h : m.policies[arn]? = some p)
    (hrun : (inMemory s).discard arn m = .error e n) : n.contents = m.contents := by
  rcases discard_cases (s := s) h with ⟨n', hok, -⟩ | ⟨-, n', herror, hn, -⟩
  · cases hok.symm.trans hrun
  · cases herror.symm.trans hrun
    rw [contents, contents, hn]

end Sharder

end PgSteward
