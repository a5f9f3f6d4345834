import PgSteward.Proofs.ShardRetries

/-!
# What the shard asks of the store

The store refuses what makes no sense: a policy under a name that is taken, a version more than a
policy may have, the deletion of the default version or of a policy that is attached, and every call
for a policy that it does not have.  The shard works on a list of the policies that it has read at
the start, and still never asks for any of this when each policy of the store may be given another
document (`keepsRules`).  A call fails only as it has been told to.

The number of versions is the reason.  A call comes by each policy once, and a policy that is given
another document gets a version for it and loses the version that was the default.  So a policy has
as many versions after a call as before, and there is always room for one more.
-/

namespace PgSteward

open PolicyMemory

variable {userId : String} {resource : List String}

/-! ## The versions of a policy -/

namespace StoredPolicy

variable {p q : StoredPolicy}

theorem WellFormed.replaced_length (h : p.WellFormed) (document : PolicyDocument) :
    (p.replaced document).versions.length = p.versions.length :=
  length_replaced h.distinct h.default h.fresh document

theorem WellFormed.settled_length (h : p.WellFormed) (found : Bool) :
    (p.settled userId resource found).versions.length = p.versions.length := by
  rw [settled]
  split
  next => exact h.replaced_length _
  next => rfl

theorem WellFormed.without_length (h : p.WellFormed) (hq : p.without userId = some q) :
    q.versions.length = p.versions.length := by
  rw [without] at hq
  split at hq
  next =>
    cases hq
    rfl
  next =>
    split at hq
    next => cases hq
    next =>
      cases hq
      exact h.replaced_length _

end StoredPolicy

/-! ## The versions of a store -/

/-- Whether the policies that a store still has have as many versions as before. -/
def PolicyMemory.KeepsCounts (m n : PolicyMemory) : Prop :=
  ∀ (arn : String) (p q : StoredPolicy), m.policies[arn]? = some p → n.policies[arn]? = some q →
    q.versions.length = p.versions.length

/-- Whether a program asks nothing of a store that makes no sense, fails only as it has been told
to, and leaves each policy with as many versions as before, if it leaves the policy at all. -/
def PolicyMemory.KeepsRules (m : PolicyMemory) (p : Program PolicyMemory IamError Unit) : Prop :=
  p.Meets m (fun _ n => m.KeepsCounts n) fun e n =>
    (∀ misuse, e ≠ .misuse misuse) ∧ (∃ call ∈ m.failures, e = injected call) ∧ m.KeepsCounts n

namespace Sharder

variable {s : ShardSettings} {m n : PolicyMemory} {arn user role : String} {p q : StoredPolicy}

/-- The policy with the statement of a user has as many versions as before, if it is not new. -/
theorem Seat.length (hm : m.WellFormed) (hseat : Seat s user role m arn q)
    (hp : m.policies[arn]? = some p) : q.versions.length = p.versions.length := by
  have hwell := hm.policies arn p hp
  cases hseat with
  | kept _ hp' =>
      obtain rfl := Option.some.inj (hp'.symm.trans hp)
      exact hwell.settled_length false
  | added _ _ hp' =>
      obtain rfl := Option.some.inj (hp'.symm.trans hp)
      exact hwell.replaced_length _
  | created _ _ hnone => cases hnone.symm.trans hp

/-- No policy has more or fewer versions once the statements of a user have been seated in one of
them, whatever that one is attached to. -/
theorem Seat.keepsCounts (hm : m.WellFormed) (hseat : Seat s user role m arn q) {r : StoredPolicy}
    (hr : r.versions = q.versions)
    (hn : n.policies = seated (userIdOf user) resource m.policies arn r) : m.KeepsCounts n := by
  intro other p o hp ho
  rw [hn] at ho
  by_cases hother : other = arn
  · subst hother
    rw [seated, Std.ExtTreeMap.getElem?_insert_self] at ho
    cases ho
    rw [hr]
    exact hseat.length hm hp
  · rw [getElem?_seated_of_ne _ hother, hp, Option.map_some] at ho
    cases ho
    exact (hm.policies other p hp).settled_length true

/-- The same holds once the statements of a user have been taken from some of the policies. -/
theorem keepsCounts_of_without (hm : m.WellFormed) (hn : ∀ arn : String,
    n.policies[arn]? = m.policies[arn]? ∨
      n.policies[arn]? = m.policies[arn]?.bind (·.without userId)) : m.KeepsCounts n := by
  intro arn p q hp hq
  rcases hn arn with hsame | hwithout
  · rw [hsame, hp] at hq
    cases hq
    rfl
  · rw [hwithout, hp, Option.bind_some] at hq
    exact (hm.policies arn p hp).without_length hq

theorem ensure_keepsRules (hm : m.WellFormed) (hseat : Seat s user role m arn q) :
    m.KeepsRules ((inMemory s).ensure user role) := by
  rcases ensure_cases hm hseat with ⟨n, hrun, hn, -⟩ | ⟨hfail, n, hrun, hn, -⟩
  · have hversions : (q.attachedTo s.loginRoles).versions = q.versions := rfl
    exact Program.meets_of_ok hrun (hseat.keepsCounts hm hversions hn)
  · exact Program.meets_of_error hrun
      ⟨fun misuse => by simp [injected], ⟨_, hfail, rfl⟩, hseat.keepsCounts hm rfl hn⟩

theorem remove_keepsRules (hm : m.WellFormed) (user : String) :
    m.KeepsRules ((inMemory s).remove user) := by
  rcases remove_cases (s := s) (hm.removable (userIdOf user)) with
    ⟨n, hrun, hn⟩ | ⟨hfail, n, hrun, -, hn⟩
  · have hwithout : ∀ arn : String,
        n.policies[arn]? = m.policies[arn]?.bind (·.without (userIdOf user)) := by
      intro arn
      rw [hn, getElem?_withoutUser]
    exact Program.meets_of_ok hrun (keepsCounts_of_without hm fun arn => .inr (hwithout arn))
  · exact Program.meets_of_error hrun
      ⟨fun misuse => by simp [injected], ⟨_, hfail, rfl⟩, keepsCounts_of_without hm hn⟩

/-- In a well-formed store a user is ensured or removed without a call that makes no sense, whatever
attachments and detachments fail or find to be done already, and no policy gets or loses a version
by it.  To ensure a user it takes a store with fewer policies than there are numbers. -/
theorem keepsRules (s : ShardSettings) (m : PolicyMemory) (hm : m.WellFormed) :
    (m.policies.size < Text.wordLimit → ∀ user role,
      m.KeepsRules ((inMemory s).ensure user role)) ∧
    ∀ user, m.KeepsRules ((inMemory s).remove user) := by
  refine ⟨fun hsize user role => ?_, fun user => remove_keepsRules hm user⟩
  obtain ⟨arn, q, hseat⟩ : ∃ arn q, Seat s user role m arn q :=
    exists_seat user role fun _ => Mirrors.hasPlace_of_keyed hm.keyed hsize
  exact ensure_keepsRules hm hseat

end Sharder

open ShardState (smallShard)

/-- The rules are kept for every user when calls fail in a store with a past. -/
theorem Sharder.failingStrewn_keepsRules :
    PolicyMemory.failingStrewn.WellFormed ∧
      PolicyMemory.failingStrewn.policies.size < Text.wordLimit ∧
      (∀ user role, PolicyMemory.failingStrewn.KeepsRules
        ((inMemory smallShard).ensure user role)) ∧
      ∀ user, PolicyMemory.failingStrewn.KeepsRules ((inMemory smallShard).remove user) := by
  have hm : PolicyMemory.failingStrewn.WellFormed := by decide +kernel
  have hsize : PolicyMemory.failingStrewn.policies.size < Text.wordLimit := by decide +kernel
  obtain ⟨hensures, hremoves⟩ := keepsRules smallShard PolicyMemory.failingStrewn hm
  exact ⟨hm, hsize, hensures hsize, hremoves⟩

end PgSteward
