import PgSteward.Postgres.Cluster
import PgSteward.Proofs.ProgramRuns
import PgSteward.Proofs.StatementReading

/-!
# Calls to a cluster

A cluster refuses a statement or applies what it reads in it to its catalog, and records it in
either case (`run_eq_ok_iff`, `run_eq_error_iff`).  Which statements it refuses is a parameter here:
`refusing` may go by the history of the cluster, so it can refuse the statement of any place in a
run.  `Cluster.server` is the instance that goes by the starts of statements.
-/

namespace PgSteward.Cluster

/-- Which statements a cluster refuses, and with which codes. -/
abbrev Refusal := Cluster → String → Option String

/-- The error of a refused statement. -/
def refused (code statement : String) : SqlError := .database code s!"{statement} failed"

/-- A cluster that has recorded a statement. -/
def recorded (s : Cluster) (session : Session) (statement : String) (error : Option SqlError)
    (catalog : Catalog) : Cluster :=
  { s with catalog, log := s.log ++ [{ session, statement, error }] }

/-- Runs a statement on a cluster with a refusal. -/
def executeWith (refusal : Refusal) (session : Session) (statement : String) :
    Program Cluster SqlError Unit := fun s =>
  match refusal s statement with
  | some code =>
      .error (refused code statement)
        (s.recorded session statement (some (refused code statement)) s.catalog)
  | none =>
      match Catalog.run session.user session.database s.strict (Command.read statement)
        s.catalog with
      | .ok () catalog => .ok () (s.recorded session statement none catalog)
      | .error e catalog => .error e (s.recorded session statement (some e) catalog)

/-- A cluster with a refusal, as programs see it. -/
def refusing (refusal : Refusal) : Server Cluster := { server with execute := executeWith refusal }

theorem server_eq_refusing : server = refusing refusal? := by
  have h : execute = executeWith refusal? := by
    funext session statement s
    unfold execute effect executeWith
    cases s.refusal? statement <;> rfl
  rw [refusing, ← h]
  rfl

/-! ## One statement -/

variable {refusal : Refusal} {session : Session} {st : Statement} {s t : Cluster} {e : SqlError}

/-- What a cluster does with a statement that it does not refuse. -/
def effectOf (session : Session) (st : Statement) (s : Cluster) : Program Catalog SqlError Unit :=
  Catalog.run session.user session.database s.strict (Command.read st.text)

/-- A statement succeeds when it is not refused and can be applied. -/
theorem run_eq_ok_iff :
    (refusing refusal).run session st s = .ok () t ↔
      refusal s st.text = none ∧ ∃ c, effectOf session st s s.catalog = .ok () c ∧
        t = s.recorded session st.text none c := by
  show executeWith refusal session st.text s = _ ↔ _
  unfold executeWith effectOf
  cases refusal s st.text with
  | some code => simp
  | none =>
      cases Catalog.run session.user session.database s.strict (Command.read st.text) s.catalog with
      | ok u c => simp [eq_comm]
      | error e c => simp

/-- A statement fails when it is refused, or when it cannot be applied. -/
theorem run_eq_error_iff :
    (refusing refusal).run session st s = .error e t ↔
      (∃ code, refusal s st.text = some code ∧ e = refused code st.text ∧
        t = s.recorded session st.text (some e) s.catalog) ∨
      (refusal s st.text = none ∧ ∃ c, effectOf session st s s.catalog = .error e c ∧
        t = s.recorded session st.text (some e) c) := by
  show executeWith refusal session st.text s = _ ↔ _
  unfold executeWith effectOf
  cases refusal s st.text with
  | some code =>
      constructor
      · intro h
        cases h
        exact .inl ⟨code, rfl, rfl, rfl⟩
      · rintro (⟨code', hcode, rfl, rfl⟩ | ⟨hnone, -⟩)
        · cases hcode
          rfl
        · cases hnone
  | none =>
      cases Catalog.run session.user session.database s.strict (Command.read st.text) s.catalog with
      | ok u c => simp
      | error e' c =>
          constructor
          · intro h
            cases h
            exact .inr ⟨rfl, c, rfl, rfl⟩
          · rintro (⟨code, hcode, -, -⟩ | ⟨-, c', hc, rfl⟩)
            · cases hcode
            · cases hc
              rfl

theorem create_of_ok {server : Server Cluster} {t : Cluster}
    (h : server.run session st s = .ok () t) : server.create session st s = .ok true t := by
  rw [Server.create, Program.bind_of_ok (Program.attempt_of_ok h)]
  rfl

theorem create_of_error {server : Server Cluster} {t : Cluster} {e : SqlError}
    (h : server.run session st s = .error e t) :
    server.create session st s = if e.isAlreadyThere then .ok false t else .error e t := by
  rw [Server.create, Program.bind_of_ok (Program.attempt_of_error h)]
  dsimp only
  split
  next => rfl
  next => rfl

/-- A statement is recorded, with the catalog as it was or as the statement has made it. -/
theorem outcome_run (s : Cluster) : ∃ e c,
    (((refusing refusal).run session st).outcome s).2 = s.recorded session st.text e c ∧
      (c = s.catalog ∨ c = ((effectOf session st s).outcome s.catalog).2) := by
  cases hrun : (refusing refusal).run session st s with
  | ok u t =>
      obtain ⟨-, c, hc, rfl⟩ := run_eq_ok_iff.mp hrun
      rw [Program.outcome, hrun]
      refine ⟨none, c, rfl, .inr ?_⟩
      rw [Program.outcome, hc]
  | error e t =>
      rw [Program.outcome, hrun]
      rcases run_eq_error_iff.mp hrun with ⟨code, -, -, rfl⟩ | ⟨-, c, hc, rfl⟩
      · exact ⟨some e, s.catalog, rfl, .inl rfl⟩
      · refine ⟨some e, c, rfl, .inr ?_⟩
        rw [Program.outcome, hc]

theorem outcome_run_server (session : Session) (st : Statement) (s : Cluster) : ∃ e c,
    ((server.run session st).outcome s).2 = s.recorded session st.text e c ∧
      (c = s.catalog ∨ c = ((effectOf session st s).outcome s.catalog).2) := by
  rw [server_eq_refusing]
  exact outcome_run s

/-- A view that no outcome of a statement changes is kept. -/
theorem keeps_run {τ : Type} {view : Cluster → τ}
    (h : ∀ s e c, c = s.catalog ∨ c = (effectOf session st s |>.outcome s.catalog).2 →
      view (s.recorded session st.text e c) = view s) :
    Program.Keeps view ((refusing refusal).run session st) := by
  intro s
  obtain ⟨e, c, hafter, hc⟩ : ∃ e c,
      (((refusing refusal).run session st).outcome s).2 = s.recorded session st.text e c ∧
        (c = s.catalog ∨ c = ((effectOf session st s).outcome s.catalog).2) := outcome_run s
  rw [hafter]
  exact h s e c hc

end PgSteward.Cluster
