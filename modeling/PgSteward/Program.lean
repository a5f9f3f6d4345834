/-!
# Programs

A program runs over surroundings, answers with a value or fails, and leaves changed surroundings
behind.  What it has done before it fails stays done.

The operator's work is written as programs over any surroundings, against records of the calls that
the surroundings offer.  So the same work runs against an in-memory cluster alone and against a
whole rehearsal with faults and a log of events.

Apart from sequencing there are four ways to combine programs.  `attempt` hands a failure out as a
value, `mapError` gives it another form, `gather` runs programs one after the other and collects the
failures, and `onPart` runs a program on a part of the surroundings.
-/

namespace PgSteward

/-- A computation over surroundings `σ` that answers with `α` or fails with `ε`. -/
abbrev Program (σ ε α : Type) := EStateM ε σ α

namespace Program

variable {σ τ ε ε' α : Type}

/-- Gives a failure another form. -/
def mapError (f : ε → ε') (p : Program σ ε α) : Program σ ε' α := fun s =>
  match p s with
  | .ok a s => .ok a s
  | .error e s => .error (f e) s

/-- Hands out the failure as a value. -/
def attempt (p : Program σ ε α) : Program σ ε' (Except ε α) := fun s =>
  match p s with
  | .ok a s => .ok (.ok a) s
  | .error e s => .ok (.error e) s

/-- Answers with a value or fails with an error. -/
def ofExcept : Except ε α → Program σ ε α
  | .ok a => pure a
  | .error e => throw e

/-- Fails when there is an error. -/
def failIf : Option ε → Program σ ε Unit
  | none => pure ()
  | some e => throw e

/-- Runs programs one after the other, whether the earlier ones fail or not, and answers with the
failures in order. -/
def gather : List (Program σ ε Unit) → Program σ ε' (List ε)
  | [] => pure []
  | p :: rest => fun s =>
      match p s with
      | .ok () s => gather rest s
      | .error e s =>
          match gather rest s with
          | .ok es s => .ok (e :: es) s
          | .error e s => .error e s

/-- Runs programs one after the other, up to the first failure. -/
def sequence : List (Program σ ε Unit) → Program σ ε Unit
  | [] => pure ()
  | p :: rest => do
      p
      sequence rest

/-- Runs a program on a part of the surroundings. -/
def onPart (part : σ → τ) (put : τ → σ → σ) (p : Program τ ε α) : Program σ ε α := fun s =>
  match p (part s) with
  | .ok a t => .ok a (put t s)
  | .error e t => .error e (put t s)

/-- The value a program answers with, and the surroundings it leaves. -/
def outcome (p : Program σ ε α) (s : σ) : Except ε α × σ :=
  match p s with
  | .ok a s => (.ok a, s)
  | .error e s => (.error e, s)

/-! ## Laws -/

/-- Gathering never fails. -/
theorem gather_ok (ps : List (Program σ ε Unit)) (s : σ) :
    ∃ es s', (gather ps : Program σ ε' (List ε)) s = .ok es s' := by
  induction ps generalizing s with
  | nil => exact ⟨[], s, rfl⟩
  | cons p rest ih =>
      cases h : p s with
      | ok u s' =>
          obtain ⟨es, s'', hs⟩ := ih s'
          exact ⟨es, s'', by simp only [gather, h, hs]⟩
      | error e s' =>
          obtain ⟨es, s'', hs⟩ := ih s'
          exact ⟨e :: es, s'', by simp only [gather, h, hs]⟩

theorem outcome_pure (a : α) (s : σ) : (pure a : Program σ ε α).outcome s = (.ok a, s) := rfl

theorem outcome_throw (e : ε) (s : σ) : (throw e : Program σ ε α).outcome s = (.error e, s) := rfl

end Program

end PgSteward
