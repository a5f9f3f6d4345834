import PgSteward.Proofs.RelatedWork

/-!
# The record of a cluster

A cluster records every statement in order, so a program only adds to the end of the record
(`related_recorded`), and it adds nothing but the statements that it gives (`related_recordsOnly`).
-/

namespace PgSteward

namespace Cluster

variable {session : Session} {st : Statement} {s t : Cluster}

/-! ## One statement -/

theorem log_of_run (h : server.run session st s = .ok () t) :
    t.log = s.log ++ [⟨session, st.text, none⟩] := by
  rw [server_eq_refusing] at h
  obtain ⟨-, c, -, rfl⟩ := run_eq_ok_iff.mp h
  rfl

/-- The creation of an object is recorded, with no error or with the error of an object that is
there. -/
theorem log_of_create {isNew : Bool} (h : server.create session st s = .ok isNew t) :
    ∃ error : Option SqlError, (∀ e ∈ error, e.isAlreadyThere = true) ∧
      t.log = s.log ++ [⟨session, st.text, error⟩] := by
  cases hrun : server.run session st s with
  | ok u t' =>
      cases (create_of_ok hrun).symm.trans h
      exact ⟨none, by simp, log_of_run hrun⟩
  | error e t' =>
      rw [create_of_error hrun] at h
      split at h
      next hthere =>
        cases h
        refine ⟨some e, by simpa using hthere, ?_⟩
        rw [server_eq_refusing] at hrun
        rcases run_eq_error_iff.mp hrun with ⟨code, -, -, rfl⟩ | ⟨-, c, -, rfl⟩ <;> rfl
      next => cases h

/-- Statements that succeed are recorded one after the other. -/
theorem log_of_runAll {statements : List Statement}
    (h : server.runAll session statements s = .ok () t) :
    t.log = s.log ++ statements.map fun st => ⟨session, st.text, none⟩ := by
  induction statements generalizing s with
  | nil =>
      cases h
      exact (List.append_nil _).symm
  | cons st rest ih =>
      obtain ⟨_, u, hrun, hrest⟩ := Program.bind_eq_ok_iff.mp h
      rw [ih hrest, log_of_run hrun]
      exact List.append_assoc ..

/-! ## All that is done -/

/-- Whether the record of a cluster goes on from an earlier one with statements of a kind only. -/
def RecordsOnly (kind : String → Prop) (before : List PgSteward.Executed) (s : Cluster) : Prop :=
  ∃ new, s.log = before ++ new ∧ ∀ entry ∈ new, kind entry.statement

theorem recordsOnly_refl (kind : String → Prop) (s : Cluster) : s.RecordsOnly kind s.log :=
  ⟨[], (List.append_nil _).symm, by simp⟩

/-- What is done on a cluster by statements of a kind adds only those to its record. -/
theorem related_recordsOnly (kind : String → Prop) (before : List PgSteward.Executed) :
    server.Related (fun s t => s = t ∧ s.RecordsOnly kind before) (fun st => kind st.text)
      server := by
  refine (related_preserving fun _ _ hs => hs).imp fun st hst session s hs => ?_
  obtain ⟨e, c, hafter, -⟩ := outcome_run_server session st s
  obtain ⟨new, hnew, hkind⟩ := hs
  rw [hafter]
  refine ⟨new ++ [⟨session, st.text, e⟩], ?_, ?_⟩
  · show s.log ++ _ = _
    rw [hnew, List.append_assoc]
  · intro entry hentry
    rcases List.mem_append.mp hentry with hentry | hentry
    · exact hkind entry hentry
    · obtain rfl := List.mem_singleton.mp hentry
      exact hst

/-- Whatever is done on a cluster, its record goes on from where it was. -/
theorem related_recorded {P : Statement → Prop} (before : List PgSteward.Executed) :
    server.Related (fun s t => s = t ∧ before <+: s.log) P server := by
  refine (related_preserving fun _ _ hs => hs).imp fun st _ session s hs => ?_
  obtain ⟨e, c, hafter, -⟩ := outcome_run_server session st s
  rw [hafter]
  exact hs.trans (List.prefix_append ..)

end Cluster

end PgSteward
