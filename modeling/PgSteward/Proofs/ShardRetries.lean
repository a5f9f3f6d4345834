import PgSteward.Proofs.ShardRemoval

/-!
# Trying again on the shard

An attachment or a detachment that fails stops the work on the shard half way.  A user that was to
be ensured has its statement by then, so all that is left to do is to attach the policy, and no
version is made (`Pending`).  A user that was to be removed is gone from some policies, and what is
to be left of the others is the same as before (`remove_attempt`).

So once a call that is tried again and again has succeeded, the policies are those that a single
call without failures leaves (`repeated_as_unfailing`).
-/

namespace PgSteward

open PolicyMemory

/-- The store when no call has been told to fail. -/
def PolicyMemory.unfailing (m : PolicyMemory) : PolicyMemory := { m with failures := [] }

namespace Sharder

open Program (Repeated exists_repeated)

variable {s : ShardSettings} {m n : PolicyMemory} {arn user role : String} {q : StoredPolicy}

/-! ## Ensuring a user -/

/-- The policy that gets the statement depends on the policies only. -/
theorem Seat.congr (hseat : Seat s user role n arn q) (h : n.policies = m.policies) :
    Seat s user role m arn q := by
  have hlisted : listed s n = listed s m := by rw [listed, listed, h]
  cases hseat with
  | kept hfirst hp => exact .kept (hlisted ▸ hfirst) (h ▸ hp)
  | added hfirst hroom hp => exact .added (hlisted ▸ hfirst) (hlisted ▸ hroom) (h ▸ hp)
  | created hfirst hroom hfree =>
      rw [hlisted] at hfirst hroom hfree ⊢
      exact .created hfirst hroom (h ▸ hfree)

/-- Whether all that is left to do for a user is to attach a policy of some policies. -/
def Pending (s : ShardSettings) (user role arn : String) (policies : NameMap StoredPolicy)
    (m : PolicyMemory) : Prop :=
  ∃ n, (inMemory s).ensure user role m = (inMemory s).attachMissing arn n ∧
    n.policies = policies ∧ n.failures = m.failures

/-- A call that fails to attach the policy leaves this to be done, with a failure less to come. -/
theorem Pending.attempt (hm : m.WellFormed) (hseat : Seat s user role m arn q)
    (h : Pending s user role arn
      (seated (userIdOf user) (s.statement user role).resource m.policies arn q) n) :
    (∃ t, (inMemory s).ensure user role n = .ok () t ∧
        t.policies = seated (userIdOf user) (s.statement user role).resource m.policies arn
          (q.attachedTo s.loginRoles)) ∨
      ∃ e u, (inMemory s).ensure user role n = .error e u ∧
        Pending s user role arn
          (seated (userIdOf user) (s.statement user role).resource m.policies arn q) u ∧
        u.failures.length < n.failures.length := by
  obtain ⟨n', hensure, hpolicies, hfailures⟩ := h
  have hq : n'.policies[arn]? = some q := by
    rw [hpolicies, seated, Std.ExtTreeMap.getElem?_insert_self]
  rw [hensure, ← hfailures]
  rcases attachMissing_cases (s := s) hq with ⟨t, hrun, ht, -⟩ | ⟨hfail, u, hrun, hu, hless⟩
  · refine .inl ⟨t, hrun, ?_⟩
    rw [ht, hpolicies, seated, NameMap.insert_insert, seated]
  · have hsame := hu.trans hpolicies
    refine .inr ⟨_, u, hrun, ⟨u, ?_, hsame, rfl⟩, ?_⟩
    · exact ensure_of_holdsOnly (hseat.holdsOnly hm rfl hsame)
    · rw [hless]
      exact (List.length_erase_add_one hfail).le

/-- A user is ensured at last, and the policies are those of a first call without failures. -/
theorem exists_repeated_ensure (hm : m.WellFormed) (hseat : Seat s user role m arn q) :
    ∃ n n₀, Repeated ((inMemory s).ensure user role) m n ∧
      (inMemory s).ensure user role m.unfailing = .ok () n₀ ∧ n.policies = n₀.policies := by
  obtain ⟨n, hrepeated, hn⟩ := exists_repeated (fun n => n.failures.length)
    (fun n => Pending.attempt (n := n) hm hseat) (ensure_of_seat hm hseat)
  have hwell : m.unfailing.WellFormed := ⟨hm.keyed, hm.policies⟩
  have hseat' : Seat s user role m.unfailing arn q := hseat.congr rfl
  rcases ensure_cases hwell hseat' with ⟨n₀, hensure, hn₀, -⟩ | ⟨hmem, -⟩
  · exact ⟨n, n₀, hrepeated, hensure, hn.trans hn₀.symm⟩
  · cases hmem

/-- A user that has been ensured at last has a policy for its statement from the start. -/
theorem exists_seat_of_repeated (h : Repeated ((inMemory s).ensure user role) m n) :
    ∃ arn q, Seat s user role m arn q := by
  obtain ⟨u, hretried, hok⟩ := h
  induction hretried with
  | start m => exact exists_seat_of_ok hok
  | @again m _ _ _ herror _ ih =>
      by_contra hnone
      obtain ⟨hfirst, hplace⟩ := Classical.not_imp.mp fun hplace =>
        hnone (exists_seat user role hplace)
      obtain ⟨e', u', herror', hu⟩ := ensure_of_no_place role hfirst hplace
      cases herror.symm.trans herror'
      obtain ⟨arn, q, hseat⟩ := ih hok
      exact hnone ⟨arn, q, hseat.congr hu⟩

/-! ## Removing a user -/

/-- A call that fails to remove a user leaves what is to be removed, with a failure less to come. -/
theorem remove_attempt {policies : NameMap StoredPolicy} (hn : n.Removable (userIdOf user))
    (h : withoutUser (userIdOf user) n.policies = policies) :
    (∃ t, (inMemory s).remove user n = .ok () t ∧ t.policies = policies) ∨
      ∃ e u, (inMemory s).remove user n = .error e u ∧
        (u.Removable (userIdOf user) ∧ withoutUser (userIdOf user) u.policies = policies) ∧
        u.failures.length < n.failures.length := by
  rcases remove_cases (s := s) hn with ⟨t, hrun, ht⟩ | ⟨hfail, u, hrun, hless, hu⟩
  · exact .inl ⟨t, hrun, ht.trans h⟩
  refine .inr ⟨_, u, hrun, ⟨fun arn p hp => ?_, ?_⟩, ?_⟩
  · rcases hu arn with hsame | hwithout
    · exact hn arn p (hsame ▸ hp)
    · rw [hwithout, Option.bind_eq_some_iff] at hp
      obtain ⟨o, ho, hleft⟩ := hp
      exact .inl ((hn arn o ho).without_eq_some hleft).1
  · rw [← h]
    apply Std.ExtTreeMap.ext_getElem?
    intro arn
    rw [getElem?_withoutUser, getElem?_withoutUser]
    rcases hu arn with hsame | hwithout
    · rw [hsame]
    · rw [hwithout]
      cases hp : n.policies[arn]? with
      | none => rfl
      | some p => exact (hn arn p hp).without_without
  · rw [hless]
    exact (List.length_erase_add_one hfail).le

/-- A user is removed at last, and the policies are those of a first call without failures. -/
theorem exists_repeated_remove (s : ShardSettings) (user : String) (hm : m.WellFormed) :
    ∃ n n₀, Repeated ((inMemory s).remove user) m n ∧
      (inMemory s).remove user m.unfailing = .ok () n₀ ∧ n.policies = n₀.policies := by
  have hremovable := hm.removable (userIdOf user)
  obtain ⟨n, hrepeated, hn⟩ := exists_repeated (fun n : PolicyMemory => n.failures.length)
    (I := fun n => n.Removable (userIdOf user) ∧
      withoutUser (userIdOf user) n.policies = withoutUser (userIdOf user) m.policies)
    (fun n hn => remove_attempt (s := s) hn.1 hn.2) ⟨hremovable, rfl⟩
  have hunfailing : m.unfailing.Removable (userIdOf user) := hremovable
  rcases remove_cases (s := s) hunfailing with ⟨n₀, hremove, hn₀⟩ | ⟨hmem, -⟩
  · exact ⟨n, n₀, hrepeated, hremove, hn.trans hn₀.symm⟩
  · cases hmem

/-! ## Either call -/

/-- When a call on a well-formed store has been repeated until it succeeds, whatever attachments and
detachments have been told to fail, the policies are those that a single call leaves when none has.
It does succeed at last; to ensure a user it takes a store with fewer policies than there are
numbers. -/
theorem repeated_as_unfailing (s : ShardSettings) (m : PolicyMemory) (hm : m.WellFormed) :
    (∀ user role n, Repeated ((inMemory s).ensure user role) m n →
      ∃ n₀, (inMemory s).ensure user role m.unfailing = .ok () n₀ ∧ n.policies = n₀.policies) ∧
    (∀ user n, Repeated ((inMemory s).remove user) m n →
      ∃ n₀, (inMemory s).remove user m.unfailing = .ok () n₀ ∧ n.policies = n₀.policies) ∧
    (m.policies.size < Text.wordLimit → ∀ user role, ∃ n,
      Repeated ((inMemory s).ensure user role) m n) ∧
    ∀ user, ∃ n, Repeated ((inMemory s).remove user) m n := by
  refine ⟨fun user role n h => ?_, fun user n h => ?_, fun hsize user role => ?_, fun user => ?_⟩
  · obtain ⟨arn, q, hseat⟩ := exists_seat_of_repeated h
    obtain ⟨n', n₀, hrepeated, hensure, hn⟩ := exists_repeated_ensure hm hseat
    obtain rfl := h.unique hrepeated
    exact ⟨n₀, hensure, hn⟩
  · obtain ⟨n', n₀, hrepeated, hremove, hn⟩ := exists_repeated_remove s user hm
    obtain rfl := h.unique hrepeated
    exact ⟨n₀, hremove, hn⟩
  · obtain ⟨arn, q, hseat⟩ : ∃ arn q, Seat s user role m arn q :=
      exists_seat user role fun _ => Mirrors.hasPlace_of_keyed hm.keyed hsize
    obtain ⟨n, -, hrepeated, -⟩ := exists_repeated_ensure hm hseat
    exact ⟨n, hrepeated⟩
  · obtain ⟨n, -, hrepeated, -⟩ := exists_repeated_remove s user hm
    exact ⟨n, hrepeated⟩

end Sharder

open ShardState (smallShard)

/-- A store with a past in which two attachments and two detachments fail. -/
def PolicyMemory.failingStrewn : PolicyMemory :=
  { PolicyMemory.racedStrewn with failures := [.attach, .detach, .attach, .detach] }

/-- In spite of the failures Alice is ensured in the store at last, and removed from it as well. -/
theorem Sharder.failingStrewn_recovers :
    PolicyMemory.failingStrewn.WellFormed ∧
      PolicyMemory.failingStrewn.policies.size < Text.wordLimit ∧
      (∃ n n₀, Program.Repeated ((inMemory smallShard).ensure "alice" "alice")
          PolicyMemory.failingStrewn n ∧
        (inMemory smallShard).ensure "alice" "alice" PolicyMemory.failingStrewn.unfailing =
          .ok () n₀ ∧ n.policies = n₀.policies) ∧
      ∃ n n₀, Program.Repeated ((inMemory smallShard).remove "alice")
          PolicyMemory.failingStrewn n ∧
        (inMemory smallShard).remove "alice" PolicyMemory.failingStrewn.unfailing = .ok () n₀ ∧
        n.policies = n₀.policies := by
  have hm : PolicyMemory.failingStrewn.WellFormed := by decide +kernel
  have hsize : PolicyMemory.failingStrewn.policies.size < Text.wordLimit := by decide +kernel
  obtain ⟨hensured, hremoved, hensures, hremoves⟩ :=
    repeated_as_unfailing smallShard PolicyMemory.failingStrewn hm
  refine ⟨hm, hsize, ?_, ?_⟩
  · obtain ⟨n, hn⟩ := hensures hsize "alice" "alice"
    obtain ⟨n₀, hrun, hsame⟩ := hensured _ _ n hn
    exact ⟨n, n₀, hn, hrun, hsame⟩
  · obtain ⟨n, hn⟩ := hremoves "alice"
    obtain ⟨n₀, hrun, hsame⟩ := hremoved _ n hn
    exact ⟨n, n₀, hn, hrun, hsame⟩

end PgSteward
