/-!
# The queue of syncs

A sync looks at every resource again.  It is asked for through handles, and a listener takes the
syncs one after the other.  The queue holds at most one sync, since another one behind it would find
nothing new to do.

Once every handle is gone and the queue is empty, the listener learns that no sync will come.
-/

namespace PgSteward

/-- A queue for at most one sync. -/
structure SyncQueue where
  /-- Whether a sync is queued. -/
  isQueued : Bool := false
  /-- The number of handles. -/
  handles : Nat := 1
  /-- Whether somebody listens. -/
  isHeard : Bool := true
deriving DecidableEq, Repr

/-- What a listener gets. -/
inductive Polled where
  | sync
  /-- Nothing so far. -/
  | pending
  /-- Nothing ever again. -/
  | ended
deriving DecidableEq, Repr

namespace SyncQueue

/-- Asks for a sync, and says whether it was queued. -/
def request (q : SyncQueue) : Bool × SyncQueue :=
  if q.isHeard && !q.isQueued then (true, { q with isQueued := true }) else (false, q)

/-- Takes the next sync. -/
def poll (q : SyncQueue) : Polled × SyncQueue :=
  if q.isQueued then (.sync, { q with isQueued := false })
  else if q.handles = 0 then (.ended, q)
  else (.pending, q)

/-- The queue with a handle more. -/
def addHandle (q : SyncQueue) : SyncQueue := { q with handles := q.handles + 1 }

/-- The queue without one of its handles. -/
def dropHandle (q : SyncQueue) : SyncQueue := { q with handles := q.handles - 1 }

/-- The queue without its listener, which takes the sync along. -/
def dropListener (q : SyncQueue) : SyncQueue := { q with isQueued := false, isHeard := false }

/-! ## Laws -/

/-- A request is accepted exactly when somebody listens and nothing is queued. -/
theorem request_fst (q : SyncQueue) : q.request.1 = (q.isHeard && !q.isQueued) := by
  unfold request
  split <;> simp_all

/-- After a request a sync is queued, whether by it or before it. -/
theorem isQueued_request (q : SyncQueue) : q.request.2.isQueued = (q.isHeard || q.isQueued) := by
  unfold request
  split
  · simp_all
  · cases hh : q.isHeard <;> cases hq : q.isQueued <;> simp_all

/-- A second request changes nothing. -/
theorem request_request (q : SyncQueue) : q.request.2.request.2 = q.request.2 := by
  unfold request
  split <;> simp_all

/-- The listener is told the end exactly when no handle is left and nothing is queued. -/
theorem poll_eq_ended_iff (q : SyncQueue) :
    q.poll.1 = .ended ↔ q.handles = 0 ∧ q.isQueued = false := by
  unfold poll
  cases hq : q.isQueued with
  | true => simp
  | false => by_cases h : q.handles = 0 <;> simp [h]

end SyncQueue

end PgSteward
