import PgSteward.Proofs.ClusterRecord
import PgSteward.Proofs.ProvisionRepair
import PgSteward.Proofs.SealedStatements

/-!
# The record of the making of a database

When a database has been made, the record holds in one piece what the owning role has done in its
session: it has made sure of the schema, and then taken every right from the public with three
statements, each of which has succeeded (`recordsRights_of_ok`).
-/

namespace PgSteward

namespace Cluster

variable {s t : Cluster}

/-- A session whose work adds to the record does so as a whole. -/
theorem prefix_of_withSession {p : Provisioner Cluster} (hp : p.server = server)
    {connection : ConnectionTarget} {work : Session → Program Cluster SqlError Unit}
    (hwork : ∀ session, Program.Related (fun u v => u = v ∧ s.log <+: u.log) (work session)
      (work session)) (h : p.withSession connection work s = .ok () t) : s.log <+: t.log := by
  have hserver : p.server.Related (fun u v => u = v ∧ s.log <+: u.log) (fun _ => True)
      server := by
    rw [hp]
    exact related_recorded s.log
  have hrelated : Program.Related (fun u v => u = v ∧ s.log <+: u.log)
      (p.withSession connection work) ((p.over server).withSession connection work) :=
    Provisioner.related_withSession hserver hwork
  obtain ⟨_, -, -, hprefix⟩ := hrelated.of_ok ⟨rfl, List.prefix_refl _⟩ h
  exact hprefix

end Cluster

namespace ProvisionCall

open Cluster

variable {call : ProvisionCall} {s t : Cluster}

/-- The session of the owning role in its database. -/
def ownerSession (call : ProvisionCall) : Session where
  host := call.host
  user := call.target.user
  database := call.target.name

/-- The statements that take every right from the public. -/
def rights (call : ProvisionCall) : List String :=
  [s!"REVOKE ALL ON DATABASE {call.target.name} FROM PUBLIC",
    "REVOKE ALL ON SCHEMA public FROM PUBLIC",
    "REVOKE ALL ON ALL TABLES IN SCHEMA public FROM PUBLIC"]

/-- Whether a run has made sure of the schema of a database and then taken every right from the
public, all in the session of the owning role. -/
def RecordsRights (call : ProvisionCall) (s t : Cluster) : Prop :=
  ∃ (earlier later : List PgSteward.Executed) (error : Option SqlError),
    (∀ e ∈ error, e.isAlreadyThere = true) ∧
    t.log = s.log ++ earlier ++
      ⟨call.ownerSession, s!"CREATE SCHEMA {call.target.name}", error⟩ ::
        call.rights.map (fun statement => ⟨call.ownerSession, statement, none⟩) ++ later

/-- The work on the schema of a database is recorded in one piece. -/
theorem log_of_provideSchema {p : Provisioner Cluster} (hp : p.server = Cluster.server)
    (h : p.provideSchema call.ownerSession call.target s = .ok () t) :
    ∃ error : Option SqlError, (∀ e ∈ error, e.isAlreadyThere = true) ∧
      t.log = s.log ++ ⟨call.ownerSession, s!"CREATE SCHEMA {call.target.name}", error⟩ ::
        call.rights.map fun statement => ⟨call.ownerSession, statement, none⟩ := by
  obtain ⟨_, u, hschema, hrights⟩ := Program.bind_eq_ok_iff.mp h
  rw [hp] at hschema hrights
  obtain ⟨i, hi, hcreate⟩ := bind_name_eq_ok_iff.mp hschema
  obtain ⟨isNew, v, hcreate, hpure⟩ := Program.bind_eq_ok_iff.mp hcreate
  cases hpure
  obtain ⟨d, hd, hall⟩ := bind_name_eq_ok_iff.mp hrights
  obtain ⟨error, herror, hlog⟩ := log_of_create hcreate
  refine ⟨error, herror, ?_⟩
  rw [log_of_runAll hall, hlog, List.append_assoc, ← hi]
  rw [rights, ← hd]
  rfl

/-- After a call has succeeded the record says that every right has been taken from the public once
the schema was there. -/
theorem recordsRights_of_ok (h : call.run Cluster.server s = .ok () t) :
    call.RecordsRights s t := by
  set p : Provisioner Cluster :=
    { server := Cluster.server, managerRole := call.managerRole,
      adminDatabase := call.adminDatabase } with hp
  obtain ⟨_, s', hnames, h⟩ := Program.bind_eq_ok_iff.mp h
  obtain rfl : s = s' := (Program.ofExcept_eq_ok_iff.mp hnames).2
  obtain ⟨_, s₁, howner, h⟩ := Program.bind_eq_ok_iff.mp h
  obtain ⟨_, s₂, hschema, hextensions⟩ := Program.bind_eq_ok_iff.mp h
  have hbefore : s.log <+: s₁.log := prefix_of_withSession (p := p) rfl
    (fun session => Provisioner.related_provideOwner (p := p) (related_recorded s.log)) howner
  have hafter : s₂.log <+: t.log := by
    split at hextensions
    next =>
      exact prefix_of_withSession (p := p) rfl
        (fun session => (related_recorded (P := fun _ => True) s₂.log).ensureExtensions
          fun _ _ => trivial) hextensions
    next =>
      cases hextensions
      exact List.prefix_refl _
  obtain ⟨session, u, hconnect, hwork⟩ := Program.bind_eq_ok_iff.mp hschema
  cases hconnect
  obtain ⟨_, v, hwork, hclose⟩ := Program.bind_eq_ok_iff.mp hwork
  cases hclose
  obtain ⟨error, herror, hlog⟩ := log_of_provideSchema (p := p) rfl hwork
  obtain ⟨earlier, hearlier⟩ := hbefore
  obtain ⟨later, hlater⟩ := hafter
  refine ⟨earlier, later, error, herror, ?_⟩
  rw [← hlater, hlog, ← hearlier]

end ProvisionCall

end PgSteward
