import PgSteward.Proofs.ShardMirror

/-!
# Runs of the shard

A shard that starts empty and is only worked on by `Sharder.ensure` and `Sharder.remove` holds
exactly the statements of the users that it is meant to hold, whatever attachments and detachments
fail on the way: each call keeps it in step with its users (`step_mirrors`).

The numbers of policies are words of 64 bits.  So a store must have fewer policies than there are
words at any time of the run, or there is no number left for a new one (`Roomy`).  No list in the
memory of a machine is longer, and a run with fewer calls than words never gets there
(`roomy_of_length`).
-/

namespace PgSteward

/-- A call to the shard, or a word to the store about the calls to come. -/
inductive ShardCall where
  /-- Ensures that a user can connect as a role. -/
  | ensure (user role : String)
  | remove (user : String)
  /-- Lets the next call of an operation fail. -/
  | fail (call : FailingCall)
  /-- Lets the next detachment find that someone else has made it. -/
  | race
deriving DecidableEq, Repr

/-- A store that the shard works on, and the users that it is meant to hold, with their roles. -/
structure ShardState where
  store : PolicyMemory := {}
  users : NameMap String := ∅

namespace ShardState

/-- What a call does.  A user is meant to be held as soon as it is ensured, and until its removal
succeeds. -/
def step (s : ShardSettings) (state : ShardState) : ShardCall → ShardState
  | .ensure user role =>
      { store := ((Sharder.inMemory s).ensure user role |>.outcome state.store).2
        users := state.users.insert user role }
  | .remove user =>
      match (Sharder.inMemory s).remove user state.store with
      | .ok () store => { store, users := state.users.erase user }
      | .error _ store => { state with store }
  | .fail call => { state with store.failures := state.store.failures ++ [call] }
  | .race => { state with store.racedDetaches := state.store.racedDetaches + 1 }

/-- What calls come to, one after the other. -/
def run (s : ShardSettings) (state : ShardState) (calls : List ShardCall) : ShardState :=
  calls.foldl (step s) state

/-- Whether a store has a number left for a new policy at every time of a run. -/
def Roomy (s : ShardSettings) (state : ShardState) (calls : List ShardCall) : Prop :=
  ∀ k, (run s state (calls.take k)).store.policies.size < Text.wordLimit

variable {s : ShardSettings} {state : ShardState}

theorem empty_mirrors (s : ShardSettings) :
    Mirrors s ({} : ShardState).users ({} : ShardState).store := by
  constructor
  · rfl
  · intro arn p hp
    simp at hp

/-- A call keeps the store in step with the users. -/
theorem step_mirrors (h : Mirrors s state.users state.store) (hlimit : 1 ≤ s.limit)
    (hword : state.store.policies.size < Text.wordLimit) (call : ShardCall) :
    Mirrors s (step s state call).users (step s state call).store := by
  cases call with
  | ensure user role => exact h.ensure user role hlimit hword
  | remove user =>
      rw [step]
      split
      next store hrun => exact h.remove_ok hrun
      next e store hrun => exact h.remove_error hrun
  | fail call => exact h.congr rfl
  | race => exact h.congr rfl

/-- A call adds at most one user. -/
theorem size_step_le (call : ShardCall) :
    (step s state call).users.size ≤ state.users.size + 1 := by
  cases call with
  | ensure user role => exact Std.ExtTreeMap.size_insert_le
  | remove user =>
      rw [step]
      split
      next => exact Nat.le_succ_of_le Std.ExtTreeMap.size_erase_le
      next => exact Nat.le_succ _
  | fail call => exact Nat.le_succ _
  | race => exact Nat.le_succ _

/-- A run keeps the store in step with the users. -/
theorem run_mirrors {calls : List ShardCall} (h : Mirrors s state.users state.store)
    (hlimit : 1 ≤ s.limit) (hroomy : Roomy s state calls) :
    Mirrors s (run s state calls).users (run s state calls).store := by
  induction calls generalizing state with
  | nil => exact h
  | cons call rest ih =>
      have hfirst := hroomy 0
      refine ih (step_mirrors h hlimit hfirst call) fun k => ?_
      exact hroomy (k + 1)

/-- A run that has fewer calls than there are words leaves room all the time. -/
theorem roomy_of_length {calls : List ShardCall} (h : Mirrors s state.users state.store)
    (hlimit : 1 ≤ s.limit) (hlength : state.users.size + calls.length < Text.wordLimit) :
    Roomy s state calls := by
  induction calls generalizing state with
  | nil =>
      intro k
      have hle := h.size_le
      rw [List.take_nil]
      rw [List.length_nil] at hlength
      exact Nat.lt_of_le_of_lt hle hlength
  | cons call rest ih =>
      have hle := h.size_le
      have hstep : (step s state call).users.size ≤ state.users.size + 1 := size_step_le call
      rw [List.length_cons] at hlength
      intro k
      cases k with
      | zero => exact Nat.lt_of_le_of_lt hle (by omega)
      | succ k => exact ih (step_mirrors h hlimit (by omega) call) (by omega) k

/-- After every call of a run from an empty store the shard holds exactly one statement for each
user and no other; its policies have names of the shard, no two the same, hold neither none nor too
many statements and have one version.  When a user has been ensured successfully, the one policy
with its statement is attached to every login role. -/
theorem run_mirrors_users (s : ShardSettings) (calls : List ShardCall) (hlimit : 1 ≤ s.limit)
    (hroomy : Roomy s {} calls) :
    Mirrors s (run s {} calls).users (run s {} calls).store ∧
      (∀ (a b : String) (p q : StoredPolicy), (run s {} calls).store.policies[a]? = some p →
        (run s {} calls).store.policies[b]? = some q → p.name = q.name → a = b) ∧
      ∀ user role n, (Sharder.inMemory s).ensure user role (run s {} calls).store = .ok () n →
        ∃ (arn : String) (p : StoredPolicy), n.policies[arn]? = some p ∧
          s.statement user role ∈ p.document.statements ∧
          (∀ login ∈ s.loginRoles, login ∈ p.attached) ∧
          ∀ (b : String) (q : StoredPolicy), n.policies[b]? = some q →
            s.statement user role ∈ q.document.statements → b = arn := by
  have h := run_mirrors (empty_mirrors s) hlimit hroomy
  have hword : (run s {} calls).store.policies.size < Text.wordLimit := by
    have := hroomy calls.length
    rwa [List.take_length] at this
  refine ⟨h, ?_, ?_⟩
  · intro a b p q hp hq hname
    rw [(h.policies a p hp).keyed, (h.policies b q hq).keyed, hname]
  · intro user role n hrun
    obtain ⟨arn, p, hp, hst, hall⟩ := h.ensure_ok hlimit hword hrun
    have hn : Mirrors s ((run s {} calls).users.insert user role) n := by
      have := h.ensure user role hlimit hword
      rwa [Program.outcome, hrun] at this
    exact ⟨arn, p, hp, hst, hall, fun b q hq hqst => hn.holder_unique hq hqst hp hst⟩

/-- Two statements a policy, and one login role. -/
def smallShard : ShardSettings := { limit := 2, loginRoles := ["developer"] }

/-- Three users in two policies, one of which cannot be attached at first.  The policy of the third
user cannot be discarded at first, and a number that has become free is taken again. -/
def busyRun : List ShardCall :=
  [.ensure "alice" "alice", .fail .attach, .ensure "bob" "bob", .fail .attach,
    .ensure "carol" "carol", .ensure "carol" "carol", .fail .detach, .remove "carol", .race,
    .remove "carol", .ensure "alice" "alice_doe", .ensure "dave" "dave", .remove "alice"]

/-- The busy run keeps the small shard in step with its users. -/
theorem busyRun_mirrors_users :
    1 ≤ smallShard.limit ∧ Roomy smallShard {} busyRun ∧
      Mirrors smallShard (run smallShard {} busyRun).users (run smallShard {} busyRun).store :=
  have hlimit : 1 ≤ smallShard.limit := by decide
  have hroomy : Roomy smallShard {} busyRun :=
    roomy_of_length (empty_mirrors smallShard) hlimit (by decide)
  ⟨hlimit, hroomy, (run_mirrors_users smallShard busyRun hlimit hroomy).1⟩

end ShardState

end PgSteward
