import PgSteward.Resync.Ticker

/-!
# Rehearsals of syncs

A rehearsal of syncs has a queue with its listener, a handle of its own, and a ticker with the other
side of its stop signal, on a clock of its own.  After every step the ticker looks at its signal and
some time passes, so it never misses what a step does.
-/

namespace PgSteward

/-- The surroundings of a rehearsal of syncs. -/
structure SyncRehearsal where
  /-- The time. -/
  now : Nat := 0
  queue : SyncQueue := {}
  /-- Whether the handle of the rehearsal is there. -/
  hasHandle : Bool := true
  /-- The stop signal of the ticker that was started last. -/
  signal : StopSignal := StopSignal.closed
  /-- The ticker that was started last, until its end has been told. -/
  ticker : Option Ticker := none
deriving DecidableEq, Repr

/-- A step of a rehearsal of syncs. -/
inductive SyncStep where
  /-- Asks for a sync. -/
  | request
  /-- Takes the next sync. -/
  | poll
  /-- Drops the handle of the rehearsal. -/
  | dropHandle
  /-- Starts a ticker with a period and the first value of its signal, in place of the one
  before. -/
  | start (period : Nat) (stopped : Bool)
  /-- Lets time pass. -/
  | advance (time : Nat)
  /-- Sets the stop signal. -/
  | stop (value : Bool)
  /-- Drops the other side of the stop signal. -/
  | dropStop
  /-- Tells how the ticker stands. -/
  | ticker
deriving DecidableEq, Repr

/-- The answer to a step. -/
inductive SyncAnswer where
  /-- There is nothing to say. -/
  | silent
  /-- Whether a request was accepted. -/
  | accepted (isQueued : Bool)
  /-- What the listener got. -/
  | polled (p : Polled)
  /-- How the ticker stands, if there is one. -/
  | ticker (state : Option TickerState)
deriving DecidableEq, Repr

namespace SyncRehearsal

/-- Lets the ticker look at its signal.  One that ends drops its handle. -/
def observe (r : SyncRehearsal) : SyncRehearsal :=
  match r.ticker with
  | none => { r with signal := r.signal.seen }
  | some t =>
      let ticker := t.observe r.signal
      { r with
        signal := r.signal.seen
        ticker := some ticker
        queue := if ticker.state = t.state then r.queue else r.queue.dropHandle }

/-- Lets time pass. -/
def elapse (r : SyncRehearsal) (time : Nat) : SyncRehearsal :=
  let now := r.now + time
  match r.ticker with
  | none => { r with now }
  | some t =>
      let (ticker, queue) := t.runUntil now r.queue
      { r with now, ticker := some ticker, queue }

/-- The time that passes after every step. -/
def pause : Nat := 2

/-- Lets all that a step has caused happen. -/
def settle (r : SyncRehearsal) : SyncRehearsal := r.observe.elapse pause

/-- Starts a ticker.  The one before ends, since its signal is dropped. -/
def start (r : SyncRehearsal) (period : Nat) (stopped : Bool) : SyncRehearsal :=
  let r := { { r with signal := r.signal.close }.observe with signal := { value := stopped } }
  if !r.hasHandle then r
  else
    let ticker := Ticker.start r.now period
    { r with ticker := some ticker
             queue := if ticker.isRunning then r.queue.addHandle else r.queue }

/-- Tells how the ticker stands.  An end is told once. -/
def tellTicker (r : SyncRehearsal) : SyncAnswer × SyncRehearsal :=
  match r.ticker with
  | none => (.ticker none, r)
  | some t => (.ticker (some t.state), if t.isRunning then r else { r with ticker := none })

/-- What a step does at once. -/
def act (r : SyncRehearsal) : SyncStep → SyncAnswer × SyncRehearsal
  | .request =>
      if r.hasHandle then
        let (isQueued, queue) := r.queue.request
        (.accepted isQueued, { r with queue })
      else (.silent, r)
  | .poll =>
      let (p, queue) := r.queue.poll
      (.polled p, { r with queue })
  | .dropHandle =>
      (.silent,
        if r.hasHandle then { r with hasHandle := false, queue := r.queue.dropHandle } else r)
  | .start period stopped => (.silent, r.start period stopped)
  | .advance time => (.silent, r.elapse time)
  | .stop value => (.silent, { r with signal := r.signal.send value })
  | .dropStop => (.silent, { r with signal := r.signal.close })
  | .ticker => r.tellTicker

/-- The answers to some steps. -/
def answers (r : SyncRehearsal) : List SyncStep → List SyncAnswer
  | [] => []
  | step :: rest =>
      let (answer, r) := r.act step
      answer :: answers r.settle rest

end SyncRehearsal

end PgSteward
