import PgSteward.Resync.Queue

/-!
# Tickers

A ticker asks for a sync whenever its period has passed, until its stop signal says that it should
end or the other side of the signal is gone.  A change of the signal to false does not end it.  A
ticker without a period fails as it starts.

Time is counted in milliseconds.
-/

namespace PgSteward

/-- A signal to stop, as the side that gets it sees it. -/
structure StopSignal where
  /-- Whether to stop. -/
  value : Bool := false
  /-- Whether the value has been set since it was last looked at. -/
  isChanged : Bool := false
  /-- Whether the other side is there. -/
  isOpen : Bool := true
deriving DecidableEq, Repr

namespace StopSignal

/-- A signal whose other side is not there. -/
def closed : StopSignal := { isOpen := false }

/-- Sets the value, if the other side is there to do so. -/
def send (s : StopSignal) (value : Bool) : StopSignal :=
  if s.isOpen then { s with value, isChanged := true } else s

/-- The signal without its other side. -/
def close (s : StopSignal) : StopSignal := { s with isOpen := false }

/-- Whether somebody who looks at the signal should end. -/
def saysEnd (s : StopSignal) : Bool := if s.isChanged then s.value else !s.isOpen

/-- The signal after a look. -/
def seen (s : StopSignal) : StopSignal := { s with isChanged := false }

end StopSignal

/-- How a ticker stands. -/
inductive TickerState where
  /-- It ticks. -/
  | running
  /-- It has ended. -/
  | stopped
  /-- It has failed. -/
  | failed
deriving DecidableEq, Repr

/-- A ticker. -/
structure Ticker where
  /-- The time between two ticks. -/
  period : Nat
  /-- The time of the next tick. -/
  due : Nat
  /-- How it stands. -/
  state : TickerState
deriving DecidableEq, Repr

namespace Ticker

/-- A ticker that starts. -/
def start (now period : Nat) : Ticker :=
  { period, due := now + period, state := if period = 0 then .failed else .running }

/-- Whether a ticker ticks, and so has a handle. -/
def isRunning (t : Ticker) : Bool := t.state = .running

/-- A ticker after a look at its signal. -/
def observe (t : Ticker) (s : StopSignal) : Ticker :=
  if t.isRunning && s.saysEnd then { t with state := .stopped } else t

/-- The time of the first tick after an instant, for a ticker whose next tick is no later. -/
def dueAfter (t : Ticker) (now : Nat) : Nat := t.due + ((now - t.due) / t.period + 1) * t.period

/-- A ticker and the queue it asks, after the time up to an instant has passed.  All ticks in that
time together come to one request. -/
def runUntil (t : Ticker) (now : Nat) (q : SyncQueue) : Ticker × SyncQueue :=
  if t.isRunning && t.due ≤ now then ({ t with due := t.dueAfter now }, q.request.2) else (t, q)

/-! ## Laws -/

/-- The tick after an instant lies behind it. -/
theorem lt_dueAfter (t : Ticker) (now : Nat) (h : 0 < t.period) (hd : t.due ≤ now) :
    now < t.dueAfter now := by
  unfold dueAfter
  have := Nat.lt_div_mul_add (a := now - t.due) h
  rw [Nat.add_mul]
  omega

/-- A ticker that has ended asks for nothing. -/
theorem runUntil_of_not_running (t : Ticker) (now : Nat) (q : SyncQueue)
    (h : t.isRunning = false) : t.runUntil now q = (t, q) := by
  simp [runUntil, h]

end Ticker

end PgSteward
