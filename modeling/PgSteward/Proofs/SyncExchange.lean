import PgSteward.Rehearsal.Resync

/-!
# Exchanges of syncs

Whoever holds a handle asks for syncs, tickers ask for them in their own time until their signals
end them, and a listener takes the syncs.  `SyncExchange` has them all, and `SyncEvent` is what one
of them does, so that a list of events is any interleaving of what they do.  Every event comes down
to what the queue, a ticker or a signal does.

Two facts carry the rest.  As long as somebody listens, the syncs that have been accepted are those
that have been delivered and the one that is queued (`balance`).  The queue counts as many handles
as are held outside of tickers and by tickers that tick (`handles_after`).
-/

namespace PgSteward

/-- A ticker with its stop signal. -/
structure SignalledTicker where
  ticker : Ticker
  signal : StopSignal
deriving DecidableEq, Repr

/-- A queue of syncs with those who hold its handles. -/
structure SyncExchange where
  queue : SyncQueue := {}
  /-- The number of handles that no ticker holds. -/
  held : Nat := 1
  /-- The tickers that have been started, in order. -/
  tickers : List SignalledTicker := []
deriving DecidableEq, Repr

/-- What somebody does.  An event of someone who is not there changes nothing. -/
inductive SyncEvent where
  /-- A handle is copied. -/
  | copy
  /-- A handle is dropped. -/
  | drop
  /-- A sync is asked for. -/
  | request
  /-- A handle goes to a new ticker, with a period and the first value of its signal. -/
  | start (now period : Nat) (value : Bool)
  /-- A ticker finds what time it is. -/
  | tick (i now : Nat)
  /-- A ticker looks at its signal. -/
  | look (i : Nat)
  /-- The work of a ticker is given up. -/
  | abort (i : Nat)
  /-- The signal of a ticker is set. -/
  | send (i : Nat) (value : Bool)
  /-- The other side of the signal of a ticker goes away. -/
  | close (i : Nat)
  /-- The listener takes the next sync. -/
  | poll
  /-- The listener goes away. -/
  | hangUp
deriving DecidableEq, Repr

/-- A ticker whose work is given up. -/
def Ticker.giveUp (t : Ticker) : Ticker := if t.isRunning then { t with state := .stopped } else t

namespace SyncExchange

/-! ## Events -/

/-- The exchange with one of its tickers changed. -/
def setTicker (x : SyncExchange) (i : Nat) (t : SignalledTicker) : SyncExchange :=
  { x with tickers := x.tickers.set i t }

/-- Hands over to a ticker, if there is such. -/
def onTicker (x : SyncExchange) (i : Nat)
    (f : SignalledTicker → SyncAnswer × SyncExchange) : SyncAnswer × SyncExchange :=
  match x.tickers[i]? with
  | none => (.silent, x)
  | some t => f t

/-- Hands over to a holder of a handle, if there is one. -/
def onHandle (x : SyncExchange) (f : SyncAnswer × SyncExchange) : SyncAnswer × SyncExchange :=
  if 0 < x.held then f else (.silent, x)

/-- A handle that no ticker holds becomes that of a new ticker.  A ticker that fails as it starts
drops it. -/
def start (x : SyncExchange) (now period : Nat) (value : Bool) : SyncExchange :=
  let ticker := Ticker.start now period
  { queue := if ticker.isRunning then x.queue else x.queue.dropHandle
    held := x.held - 1
    tickers := x.tickers ++ [⟨ticker, { value }⟩] }

/-- A ticker that finds what time it is asks for a sync when its tick is due. -/
def tick (x : SyncExchange) (i now : Nat) (t : SignalledTicker) : SyncAnswer × SyncExchange :=
  let run := t.ticker.runUntil now x.queue
  (if t.ticker.isRunning && t.ticker.due ≤ now then .accepted x.queue.request.1 else .silent,
    { x with queue := run.2 }.setTicker i { t with ticker := run.1 })

/-- A ticker turns into another one, and drops its handle when it ends by that. -/
def turn (x : SyncExchange) (i : Nat) (t : SignalledTicker) (ticker : Ticker) : SyncExchange :=
  { x with
    queue := if t.ticker.isRunning && !ticker.isRunning then x.queue.dropHandle
      else x.queue }.setTicker i ⟨ticker, t.signal.seen⟩

/-- What an event does, and what it is answered with. -/
def act (x : SyncExchange) : SyncEvent → SyncAnswer × SyncExchange
  | .copy => x.onHandle (.silent, { x with held := x.held + 1, queue := x.queue.addHandle })
  | .drop => x.onHandle (.silent, { x with held := x.held - 1, queue := x.queue.dropHandle })
  | .request => x.onHandle (.accepted x.queue.request.1, { x with queue := x.queue.request.2 })
  | .start now period value => x.onHandle (.silent, x.start now period value)
  | .tick i now => x.onTicker i (x.tick i now)
  | .look i => x.onTicker i fun t => (.silent, x.turn i t (t.ticker.observe t.signal))
  | .abort i => x.onTicker i fun t => (.silent, x.turn i t t.ticker.giveUp)
  | .send i value =>
      x.onTicker i fun t => (.silent, x.setTicker i { t with signal := t.signal.send value })
  | .close i => x.onTicker i fun t => (.silent, x.setTicker i { t with signal := t.signal.close })
  | .poll =>
      if x.queue.isHeard then (.polled x.queue.poll.1, { x with queue := x.queue.poll.2 })
      else (.silent, x)
  | .hangUp => (.silent, { x with queue := x.queue.dropListener })

/-- The exchange after some events. -/
def after (x : SyncExchange) (events : List SyncEvent) : SyncExchange :=
  events.foldl (fun x e => (x.act e).2) x

/-- The answers to some events. -/
def answers (x : SyncExchange) : List SyncEvent → List SyncAnswer
  | [] => []
  | e :: rest => (x.act e).1 :: answers (x.act e).2 rest

/-- The number of requests that were accepted. -/
def accepted (answers : List SyncAnswer) : Nat := answers.count (.accepted true)

/-- The number of syncs that were delivered. -/
def delivered (answers : List SyncAnswer) : Nat := answers.count (.polled .sync)

/-- The number of tickers that tick. -/
def ticking (x : SyncExchange) : Nat := x.tickers.countP (·.ticker.isRunning)

variable {x : SyncExchange} {e : SyncEvent} {events more : List SyncEvent} {i : Nat}
  {t : SignalledTicker}

/-! ## The queue -/

/-- Nothing is answered, and the sync is left alone. -/
def LeavesSync (x : SyncExchange) (r : SyncAnswer × SyncExchange) : Prop :=
  r.1 = .silent ∧ r.2.queue.isQueued = x.queue.isQueued ∧ r.2.queue.isHeard = x.queue.isHeard

/-- A sync is asked for. -/
def Asks (x : SyncExchange) (r : SyncAnswer × SyncExchange) : Prop :=
  r.1 = .accepted x.queue.request.1 ∧ r.2.queue = x.queue.request.2

/-- Whether an event asks for a sync: somebody with a handle does, or a ticker whose tick is due. -/
def Requests (x : SyncExchange) : SyncEvent → Prop
  | .request => 0 < x.held
  | .tick i now => ∃ t, x.tickers[i]? = some t ∧ t.ticker.isRunning = true ∧ t.ticker.due ≤ now
  | _ => False

theorem leavesSync_self (x : SyncExchange) : LeavesSync x (.silent, x) := ⟨rfl, rfl, rfl⟩

theorem leavesSync_onHandle {r : SyncAnswer × SyncExchange} (h : LeavesSync x r) :
    LeavesSync x (x.onHandle r) := by
  unfold onHandle
  split
  next => exact h
  next => exact leavesSync_self x

theorem leavesSync_onTicker {f : SignalledTicker → SyncAnswer × SyncExchange}
    (h : ∀ t, LeavesSync x (f t)) : LeavesSync x (x.onTicker i f) := by
  unfold onTicker
  split
  next => exact leavesSync_self x
  next t _ => exact h t

theorem leavesSync_start (x : SyncExchange) (now period : Nat) (value : Bool) :
    LeavesSync x (.silent, x.start now period value) := by
  unfold start
  dsimp only
  split
  next => exact ⟨rfl, rfl, rfl⟩
  next => exact ⟨rfl, rfl, rfl⟩

theorem leavesSync_turn (x : SyncExchange) (i : Nat) (t : SignalledTicker) (ticker : Ticker) :
    LeavesSync x (.silent, x.turn i t ticker) := by
  unfold turn
  split
  next => exact ⟨rfl, rfl, rfl⟩
  next => exact ⟨rfl, rfl, rfl⟩

/-- A ticker that finds what time it is asks for a sync when its tick is due, and else does
nothing. -/
theorem tick_cases {now : Nat} (ht : x.tickers[i]? = some t) :
    LeavesSync x (x.tick i now t) ∧ ¬x.Requests (.tick i now) ∨
      Asks x (x.tick i now t) ∧ x.Requests (.tick i now) := by
  have hrequests : x.Requests (.tick i now) ↔
      (t.ticker.isRunning && decide (t.ticker.due ≤ now)) = true := by
    rw [Bool.and_eq_true, decide_eq_true_iff]
    constructor
    · rintro ⟨t', ht', hruns, hdue⟩
      cases ht.symm.trans ht'
      exact ⟨hruns, hdue⟩
    · exact fun h => ⟨t, ht, h⟩
  rw [hrequests]
  unfold tick Ticker.runUntil
  cases t.ticker.isRunning && decide (t.ticker.due ≤ now) with
  | true => exact .inr ⟨⟨rfl, rfl⟩, rfl⟩
  | false => exact .inl ⟨⟨rfl, rfl, rfl⟩, nofun⟩

/-- All events but those of the listener leave the sync alone or ask for one. -/
theorem act_cases (hpoll : e ≠ .poll) (hhang : e ≠ .hangUp) :
    LeavesSync x (x.act e) ∧ ¬x.Requests e ∨ Asks x (x.act e) ∧ x.Requests e := by
  cases e with
  | copy => exact .inl ⟨leavesSync_onHandle ⟨rfl, rfl, rfl⟩, nofun⟩
  | drop => exact .inl ⟨leavesSync_onHandle ⟨rfl, rfl, rfl⟩, nofun⟩
  | request =>
      simp only [act, onHandle]
      split
      next hheld => exact .inr ⟨⟨rfl, rfl⟩, hheld⟩
      next hnone => exact .inl ⟨leavesSync_self x, hnone⟩
  | start now period value => exact .inl ⟨leavesSync_onHandle (leavesSync_start ..), nofun⟩
  | tick i now =>
      simp only [act, onTicker]
      split
      next hnone =>
        refine .inl ⟨leavesSync_self x, ?_⟩
        rintro ⟨t, ht, -⟩
        cases hnone.symm.trans ht
      next t ht => exact tick_cases ht
  | look i => exact .inl ⟨leavesSync_onTicker fun t => leavesSync_turn .., nofun⟩
  | abort i => exact .inl ⟨leavesSync_onTicker fun t => leavesSync_turn .., nofun⟩
  | send i value => exact .inl ⟨leavesSync_onTicker fun t => ⟨rfl, rfl, rfl⟩, nofun⟩
  | close i => exact .inl ⟨leavesSync_onTicker fun t => ⟨rfl, rfl, rfl⟩, nofun⟩
  | poll => exact absurd rfl hpoll
  | hangUp => exact absurd rfl hhang

theorem act_poll (h : x.queue.isHeard = true) :
    x.act .poll = (.polled x.queue.poll.1, { x with queue := x.queue.poll.2 }) := by
  rw [act, if_pos h]

theorem act_poll_of_not_isHeard (h : ¬x.queue.isHeard = true) : x.act .poll = (.silent, x) := by
  rw [act, if_neg h]

theorem isHeard_request (q : SyncQueue) : q.request.2.isHeard = q.isHeard := by
  unfold SyncQueue.request
  split
  next => rfl
  next => rfl

theorem isHeard_poll (q : SyncQueue) : q.poll.2.isHeard = q.isHeard := by
  unfold SyncQueue.poll
  split
  next => rfl
  next =>
    split
    next => rfl
    next => rfl

/-- Somebody listens as long as the listener does not go away. -/
theorem isHeard_act (hhang : e ≠ .hangUp) : (x.act e).2.queue.isHeard = x.queue.isHeard := by
  by_cases hpoll : e = .poll
  · subst hpoll
    by_cases hheard : x.queue.isHeard = true
    · rw [act_poll hheard]
      exact isHeard_poll x.queue
    · rw [act_poll_of_not_isHeard hheard]
  · rcases act_cases (x := x) hpoll hhang with ⟨⟨-, -, hheard⟩, -⟩ | ⟨⟨-, hqueue⟩, -⟩
    · exact hheard
    · rw [hqueue, isHeard_request]

/-- Somebody listens after events in which the listener has not gone away. -/
theorem isHeard_after :
    (x.after events).queue.isHeard = true ↔ x.queue.isHeard = true ∧ .hangUp ∉ events := by
  induction events generalizing x with
  | nil => simp [after]
  | cons e rest ih =>
      rw [show x.after (e :: rest) = (x.act e).2.after rest from rfl, ih, List.mem_cons, not_or]
      by_cases hhang : e = .hangUp
      · subst hhang
        have hgone : (x.act .hangUp).2.queue.isHeard = false := rfl
        simp [hgone]
      · rw [isHeard_act hhang]
        simp [Ne.symm hhang]

/-- The number of syncs in the queue. -/
def queued (x : SyncExchange) : Nat := x.queue.isQueued.toNat

/-- As long as somebody listens, an event that accepts a sync puts it into the queue, and an event
that delivers one takes it out. -/
theorem balance_act (h : x.queue.isHeard = true) (hhang : e ≠ .hangUp) :
    x.queued + accepted [(x.act e).1] = delivered [(x.act e).1] + (x.act e).2.queued := by
  unfold queued accepted delivered
  by_cases hpoll : e = .poll
  · subst hpoll
    rw [act_poll h]
    unfold SyncQueue.poll
    cases hqueued : x.queue.isQueued with
    | true => simp
    | false => by_cases hnone : x.queue.handles = 0 <;> simp [hnone, hqueued]
  · rcases act_cases (x := x) hpoll hhang with
      ⟨⟨hanswer, hqueued, -⟩, -⟩ | ⟨⟨hanswer, hqueue⟩, -⟩
    · rw [hanswer, hqueued]
      simp
    · rw [hanswer, hqueue, SyncQueue.request_fst, SyncQueue.isQueued_request, h]
      cases x.queue.isQueued <;> simp

/-- As long as somebody listens, the syncs that have been accepted are those that have been
delivered and the one that is queued. -/
theorem balance (h : x.queue.isHeard = true) (hhang : .hangUp ∉ events) :
    x.queued + accepted (x.answers events) =
      delivered (x.answers events) + (x.after events).queued := by
  induction events generalizing x with
  | nil => simp [answers, accepted, delivered, after]
  | cons e rest ih =>
      rw [List.mem_cons, not_or] at hhang
      have hfirst := balance_act h fun he => hhang.1 he.symm
      have hrest := ih ((isHeard_act fun he => hhang.1 he.symm).trans h) hhang.2
      have haccepted : accepted ([(x.act e).1] ++ (x.act e).2.answers rest) =
          accepted [(x.act e).1] + accepted ((x.act e).2.answers rest) := List.count_append
      have hdelivered : delivered ([(x.act e).1] ++ (x.act e).2.answers rest) =
          delivered [(x.act e).1] + delivered ((x.act e).2.answers rest) := List.count_append
      have hanswers : x.answers (e :: rest) = [(x.act e).1] ++ (x.act e).2.answers rest := rfl
      rw [hanswers, haccepted, hdelivered, show x.after (e :: rest) = (x.act e).2.after rest from rfl]
      omega

/-- Only who asks for a sync is answered whether it was accepted. -/
theorem act_eq_accepted_iff {b : Bool} :
    (x.act e).1 = .accepted b ↔ x.Requests e ∧ b = x.queue.request.1 := by
  by_cases hpoll : e = .poll
  · subst hpoll
    have hother : (x.act .poll).1 ≠ .accepted b := by
      by_cases hheard : x.queue.isHeard = true
      · rw [act_poll hheard]
        nofun
      · rw [act_poll_of_not_isHeard hheard]
        nofun
    exact iff_of_false hother fun h => h.1
  by_cases hhang : e = .hangUp
  · subst hhang
    exact iff_of_false nofun fun h => h.1
  rcases act_cases (x := x) hpoll hhang with ⟨⟨hsilent, -⟩, hnot⟩ | ⟨⟨hanswer, -⟩, hasks⟩
  · rw [hsilent]
    exact iff_of_false nofun fun h => hnot h.1
  · rw [hanswer, SyncAnswer.accepted.injEq, eq_comm]
    exact (and_iff_right hasks).symm

/-- A request leaves a sync in the queue, whether it is accepted or not. -/
theorem isQueued_of_requests (h : x.queue.isHeard = true) (hasks : x.Requests e) :
    (x.act e).2.queue.isQueued = true := by
  have hpoll : e ≠ .poll := by
    rintro rfl
    exact hasks
  have hhang : e ≠ .hangUp := by
    rintro rfl
    exact hasks
  rcases act_cases (x := x) hpoll hhang with ⟨-, hnot⟩ | ⟨⟨-, hqueue⟩, -⟩
  · exact absurd hasks hnot
  · rw [hqueue, SyncQueue.isQueued_request, h]
    rfl

/-- A sync that is queued is delivered when the listener takes the next one. -/
theorem delivered_of_isQueued (h : x.queue.isHeard = true) (hqueued : x.queue.isQueued = true)
    (hhang : .hangUp ∉ events) (hpoll : .poll ∈ events) :
    .polled .sync ∈ x.answers events := by
  induction events generalizing x with
  | nil => cases hpoll
  | cons e rest ih =>
      rw [List.mem_cons, not_or] at hhang
      by_cases he : e = .poll
      · subst he
        rw [answers, act_poll h, SyncQueue.poll, if_pos hqueued]
        exact List.mem_cons_self ..
      · have hleft : (x.act e).2.queue.isQueued = true := by
          rcases act_cases (x := x) he fun he => hhang.1 he.symm with
            ⟨⟨-, hsame, -⟩, -⟩ | ⟨-, hasks⟩
          · exact hsame.trans hqueued
          · exact isQueued_of_requests h hasks
        refine List.mem_cons_of_mem _ (ih ?_ hleft hhang.2 ?_)
        · exact (isHeard_act fun he => hhang.1 he.symm).trans h
        · exact (List.mem_cons.mp hpoll).resolve_left fun hp => he hp.symm

/-! ## The handles -/

/-- The queue counts the handles that are held outside of tickers and by tickers that tick. -/
def CountsHandles (x : SyncExchange) : Prop := x.queue.handles = x.held + x.ticking

theorem handles_request (q : SyncQueue) : q.request.2.handles = q.handles := by
  unfold SyncQueue.request
  split
  next => rfl
  next => rfl

theorem handles_poll (q : SyncQueue) : q.poll.2.handles = q.handles := by
  unfold SyncQueue.poll
  split
  next => rfl
  next =>
    split
    next => rfl
    next => rfl

/-- A ticker that finds what time it is ticks on, and the handles stay. -/
theorem runUntil_keeps (t : Ticker) (now : Nat) (q : SyncQueue) :
    (t.runUntil now q).1.isRunning = t.isRunning ∧ (t.runUntil now q).2.handles = q.handles := by
  unfold Ticker.runUntil
  split
  next => exact ⟨rfl, handles_request q⟩
  next => exact ⟨rfl, rfl⟩

/-- A ticker looks at its signal while it ticks only. -/
theorem isRunning_of_observe {t : Ticker} {s : StopSignal} (h : (t.observe s).isRunning = true) :
    t.isRunning = true := by
  unfold Ticker.observe at h
  split at h
  next hends => exact (Bool.and_eq_true_iff.mp hends).1
  next => exact h

theorem isRunning_of_giveUp {t : Ticker} (h : t.giveUp.isRunning = true) : t.isRunning = true := by
  unfold Ticker.giveUp at h
  split at h
  next hruns => exact hruns
  next => exact h

/-- The number of tickers that tick changes with the one that is changed. -/
theorem ticking_setTicker (t' : SignalledTicker) (h : x.tickers[i]? = some t) :
    (x.setTicker i t').ticking + t.ticker.isRunning.toNat =
      x.ticking + t'.ticker.isRunning.toNat := by
  obtain ⟨hi, ht⟩ := List.getElem?_eq_some_iff.mp h
  have hpos : t.ticker.isRunning.toNat ≤ x.ticking := by
    cases hruns : t.ticker.isRunning with
    | true => exact List.countP_pos_iff.mpr ⟨t, List.mem_of_getElem? h, hruns⟩
    | false => exact Nat.zero_le _
  have hnat : ∀ b : Bool, (if b = true then 1 else 0) = b.toNat := by decide
  have hset : (x.setTicker i t').ticking =
      x.ticking - t.ticker.isRunning.toNat + t'.ticker.isRunning.toNat := by
    rw [ticking, setTicker, List.countP_set hi, ht, hnat, hnat]
    rfl
  omega

theorem counts_onHandle {r : SyncAnswer × SyncExchange} (h : x.CountsHandles)
    (hr : 0 < x.held → r.2.CountsHandles) : (x.onHandle r).2.CountsHandles := by
  unfold onHandle
  split
  next hheld => exact hr hheld
  next => exact h

theorem counts_onTicker {f : SignalledTicker → SyncAnswer × SyncExchange} (h : x.CountsHandles)
    (hf : ∀ t, x.tickers[i]? = some t → (f t).2.CountsHandles) :
    (x.onTicker i f).2.CountsHandles := by
  unfold onTicker
  split
  next => exact h
  next t ht => exact hf t ht

theorem counts_start (h : x.CountsHandles) (hheld : 0 < x.held) (now period : Nat)
    (value : Bool) : (x.start now period value).CountsHandles := by
  have hticking : (x.start now period value).ticking =
      x.ticking + (Ticker.start now period).isRunning.toNat := by
    unfold ticking start
    rw [List.countP_append, List.countP_singleton]
    cases (Ticker.start now period).isRunning <;> rfl
  unfold CountsHandles at *
  rw [hticking]
  show (if (Ticker.start now period).isRunning then x.queue else x.queue.dropHandle).handles =
    x.held - 1 + _
  cases (Ticker.start now period).isRunning with
  | true =>
      show x.queue.handles = x.held - 1 + (x.ticking + 1)
      omega
  | false =>
      show x.queue.handles - 1 = x.held - 1 + (x.ticking + 0)
      omega

theorem counts_tick (h : x.CountsHandles) (now : Nat) (ht : x.tickers[i]? = some t) :
    (x.tick i now t).2.CountsHandles := by
  obtain ⟨hruns, hhandles⟩ := runUntil_keeps t.ticker now x.queue
  have hticking : ({ x with queue := (t.ticker.runUntil now x.queue).2 }.setTicker i
      { t with ticker := (t.ticker.runUntil now x.queue).1 }).ticking +
        t.ticker.isRunning.toNat = x.ticking + _ := ticking_setTicker _ ht
  dsimp only at hticking
  rw [hruns] at hticking
  unfold CountsHandles at *
  show (t.ticker.runUntil now x.queue).2.handles = x.held + _
  rw [hhandles, h]
  exact congrArg (x.held + ·) (Nat.add_right_cancel hticking).symm

/-- A ticker that turns into another one may end and not start again. -/
theorem counts_turn (h : x.CountsHandles) (ht : x.tickers[i]? = some t) {ticker : Ticker}
    (hends : ticker.isRunning = true → t.ticker.isRunning = true) :
    (x.turn i t ticker).CountsHandles := by
  have hticking : (x.turn i t ticker).ticking + t.ticker.isRunning.toNat =
      x.ticking + ticker.isRunning.toNat := ticking_setTicker _ ht
  unfold CountsHandles at *
  show (if t.ticker.isRunning && !ticker.isRunning then x.queue.dropHandle else x.queue).handles =
    x.held + _
  cases hruns' : ticker.isRunning with
  | true =>
      rw [hends hruns', hruns'] at hticking
      rw [Bool.not_true, Bool.and_false, Nat.add_right_cancel hticking]
      exact h
  | false =>
      rw [hruns'] at hticking
      cases hruns : t.ticker.isRunning with
      | true =>
          rw [hruns] at hticking
          show x.queue.handles - 1 = _
          rw [Bool.toNat_true, Bool.toNat_false] at hticking
          omega
      | false =>
          rw [hruns] at hticking
          rw [Nat.add_right_cancel hticking]
          exact h

theorem counts_act (h : x.CountsHandles) (e : SyncEvent) : (x.act e).2.CountsHandles := by
  cases e with
  | copy =>
      refine counts_onHandle h fun _ => ?_
      unfold CountsHandles at *
      show x.queue.handles + 1 = x.held + 1 + x.ticking
      omega
  | drop =>
      refine counts_onHandle h fun hheld => ?_
      unfold CountsHandles at *
      show x.queue.handles - 1 = x.held - 1 + x.ticking
      omega
  | request => exact counts_onHandle h fun _ => (handles_request _).trans h
  | start now period value => exact counts_onHandle h fun hheld => counts_start h hheld ..
  | tick i now => exact counts_onTicker h fun t ht => counts_tick h now ht
  | look i => exact counts_onTicker h fun t ht => counts_turn h ht isRunning_of_observe
  | abort i => exact counts_onTicker h fun t ht => counts_turn h ht isRunning_of_giveUp
  | send i value =>
      refine counts_onTicker h fun t ht => h.trans (congrArg (x.held + ·) ?_)
      have hticking := ticking_setTicker { t with signal := t.signal.send value } ht
      exact (Nat.add_right_cancel hticking).symm
  | close i =>
      refine counts_onTicker h fun t ht => h.trans (congrArg (x.held + ·) ?_)
      have hticking := ticking_setTicker { t with signal := t.signal.close } ht
      exact (Nat.add_right_cancel hticking).symm
  | poll =>
      by_cases hheard : x.queue.isHeard = true
      · rw [act_poll hheard]
        exact (handles_poll _).trans h
      · rw [act_poll_of_not_isHeard hheard]
        exact h
  | hangUp => exact h

theorem counts_after (h : x.CountsHandles) (events : List SyncEvent) :
    (x.after events).CountsHandles := by
  induction events generalizing x with
  | nil => exact h
  | cons e rest ih => exact ih (counts_act h e)

/-- Whether no handle is left, neither outside of tickers nor in one that ticks. -/
def IsDeserted (x : SyncExchange) : Prop :=
  x.held = 0 ∧ ∀ t ∈ x.tickers, t.ticker.isRunning = false

theorem CountsHandles.isDeserted_iff (h : x.CountsHandles) :
    x.IsDeserted ↔ x.queue.handles = 0 := by
  rw [h, Nat.add_eq_zero_iff]
  unfold IsDeserted ticking
  rw [List.countP_eq_zero]
  simp

/-! ## The end of a ticker -/

/-- Whether a ticker has been started and does not tick. -/
def HasEnded (x : SyncExchange) (i : Nat) : Prop :=
  ∃ t, x.tickers[i]? = some t ∧ t.ticker.isRunning = false

/-- A ticker that has ended stays so, as long as the tickers that are changed do not start again. -/
theorem HasEnded.setTicker {j : Nat} {t' : SignalledTicker} (h : x.HasEnded i)
    (hj : x.tickers[j]? = some t)
    (hends : t'.ticker.isRunning = true → t.ticker.isRunning = true) :
    (x.setTicker j t').HasEnded i := by
  obtain ⟨old, hold, hended⟩ := h
  by_cases hij : j = i
  · subst hij
    cases hj.symm.trans hold
    obtain ⟨hlt, -⟩ := List.getElem?_eq_some_iff.mp hold
    refine ⟨t', List.getElem?_set_self hlt, ?_⟩
    cases hruns : t'.ticker.isRunning with
    | false => rfl
    | true => exact (hends hruns).symm.trans hended
  · exact ⟨old, (List.getElem?_set_ne hij).trans hold, hended⟩

theorem HasEnded.onTicker {j : Nat} {f : SignalledTicker → SyncAnswer × SyncExchange}
    (h : x.HasEnded i) (hf : ∀ t, x.tickers[j]? = some t → (f t).2.HasEnded i) :
    (x.onTicker j f).2.HasEnded i := by
  unfold SyncExchange.onTicker
  split
  next => exact h
  next t ht => exact hf t ht

theorem HasEnded.onHandle {r : SyncAnswer × SyncExchange} (h : x.HasEnded i)
    (hr : r.2.HasEnded i) : (x.onHandle r).2.HasEnded i := by
  unfold SyncExchange.onHandle
  split
  next => exact hr
  next => exact h

/-- No event makes a ticker tick again. -/
theorem HasEnded.act (h : x.HasEnded i) (e : SyncEvent) : (x.act e).2.HasEnded i := by
  cases e with
  | copy => exact h.onHandle h
  | drop => exact h.onHandle h
  | request => exact h.onHandle h
  | start now period value =>
      obtain ⟨t, ht, hended⟩ := h
      obtain ⟨hlt, -⟩ := List.getElem?_eq_some_iff.mp ht
      refine HasEnded.onHandle ⟨t, ht, hended⟩ ⟨t, ?_, hended⟩
      exact (List.getElem?_append_left hlt).trans ht
  | tick j now =>
      refine h.onTicker fun t ht => h.setTicker ht fun hruns => ?_
      exact (runUntil_keeps t.ticker now x.queue).1.symm.trans hruns
  | look j => exact h.onTicker fun t ht => h.setTicker ht isRunning_of_observe
  | abort j => exact h.onTicker fun t ht => h.setTicker ht isRunning_of_giveUp
  | send j value => exact h.onTicker fun t ht => h.setTicker ht fun hruns => hruns
  | close j => exact h.onTicker fun t ht => h.setTicker ht fun hruns => hruns
  | poll =>
      by_cases hheard : x.queue.isHeard = true
      · rw [act_poll hheard]
        exact h
      · rw [act_poll_of_not_isHeard hheard]
        exact h
  | hangUp => exact h

theorem HasEnded.after (h : x.HasEnded i) (events : List SyncEvent) :
    (x.after events).HasEnded i := by
  induction events generalizing x with
  | nil => exact h
  | cons e rest ih => exact ih (h.act e)

/-- A ticker that has ended asks for nothing, whatever time it is. -/
theorem HasEnded.tick (h : x.HasEnded i) (now : Nat) : x.act (.tick i now) = (.silent, x) := by
  obtain ⟨t, ht, hended⟩ := h
  obtain ⟨hlt, hget⟩ := List.getElem?_eq_some_iff.mp ht
  have hrun := Ticker.runUntil_of_not_running t.ticker now x.queue hended
  have hsame : x.tickers.set i t = x.tickers := by
    rw [← hget]
    exact List.set_getElem_self hlt
  rw [SyncExchange.act, SyncExchange.onTicker, ht]
  show (x.tick i now t) = _
  rw [SyncExchange.tick, hrun, hended]
  show (SyncAnswer.silent, { x with tickers := x.tickers.set i t }) = _
  rw [hsame]

/-- What a signal tells someone who looks: to end when it has been set to true, and when it has not
been set and its other side is gone. -/
theorem saysEnd_iff (s : StopSignal) :
    s.saysEnd = true ↔
      (s.isChanged = true ∧ s.value = true) ∨ (s.isChanged = false ∧ s.isOpen = false) := by
  unfold StopSignal.saysEnd
  cases s.isChanged <;> simp

theorem isRunning_observe {t : Ticker} (hruns : t.isRunning = true) (s : StopSignal) :
    (t.observe s).isRunning = !s.saysEnd := by
  unfold Ticker.observe
  rw [hruns]
  cases s.saysEnd with
  | true => rfl
  | false => exact hruns

/-- A ticker that ticks ends when its signal tells it so, and ticks on otherwise. -/
theorem hasEnded_look_iff (ht : x.tickers[i]? = some t) (hruns : t.ticker.isRunning = true) :
    (x.act (.look i)).2.HasEnded i ↔ t.signal.saysEnd = true := by
  obtain ⟨hlt, -⟩ := List.getElem?_eq_some_iff.mp ht
  have hset : (x.act (.look i)).2.tickers[i]? =
      some ⟨t.ticker.observe t.signal, t.signal.seen⟩ := by
    rw [SyncExchange.act, SyncExchange.onTicker, ht]
    exact List.getElem?_set_self hlt
  have hobserve := isRunning_observe hruns t.signal
  unfold HasEnded
  rw [hset]
  simp [hobserve]

/-! ## Any interleaving -/

/-- Some holders of handles and two tickers.  The first one is told to go on and then to end, and
the other side of the signal of the second one goes away. -/
def busyDay : List SyncEvent :=
  [.copy, .start 0 300 false, .request, .tick 0 300, .poll, .send 0 false, .look 0, .tick 0 600,
    .request, .poll, .send 0 true, .tick 0 900, .look 0, .tick 0 1200, .copy, .start 1200 300 false,
    .drop, .tick 1 1500, .close 1]

end SyncExchange

end PgSteward
