import PgSteward.Proofs.CatalogCommands
import PgSteward.Proofs.ClusterCalls
import PgSteward.Proofs.NameMaps

/-!
# Memberships on a cluster

What the operations on roles do to the memberships that a catalog holds.  A role that is granted
is held afterwards, and one that is revoked is not (`grantRole_ok`, `revokeRole_ok`), unless the
role is named like the word in front of an object.  Statements about passwords and privileges, and
new roles that are to get no others, leave all memberships as they are.
-/

namespace PgSteward

namespace Server

open Program

variable {σ τ : Type} {view : σ → τ} {server : Server σ} {session : Session}

theorem keeps_create {st : Statement} (h : Keeps view (server.run session st)) :
    Keeps view (server.create session st) := by
  refine keeps_bind (keeps_attempt h) fun r => ?_
  cases r with
  | ok u => exact keeps_pure true
  | error e =>
      dsimp only
      split
      · exact keeps_pure false
      · exact keeps_throw e

/-- Making sure of a role that is to have neither a password nor memberships is one statement. -/
theorem ensureRole_plain (name : String) (login : Bool) :
    server.ensureRole session name login [] none =
      Program.ofExcept (Identifier.of name) >>= fun role =>
        server.create session (.createRole role login none []) >>= fun _ => pure () := by
  unfold ensureRole
  refine congrArg (Program.ofExcept (Identifier.of name) >>= ·) (funext fun role => ?_)
  show (pure [] >>= _) = _
  rw [pure_bind]
  refine congrArg (server.create session _ >>= ·) (funext fun isNew => ?_)
  cases isNew <;> rfl

/-- Making sure of a plain role keeps what the statement that creates it keeps. -/
theorem keeps_ensureRole {name : String} {login : Bool}
    (h : ∀ role, Keeps view (server.run session (.createRole role login none []))) :
    Keeps view (server.ensureRole session name login [] none) := by
  rw [ensureRole_plain]
  exact keeps_bind (keeps_ofExcept _) fun role =>
    keeps_bind (keeps_create (h role)) fun _ => keeps_pure ()

end Server

namespace Cluster

/-- Work on a name succeeds when the name is an identifier and the work on it succeeds. -/
theorem bind_name_eq_ok_iff {α : Type} {name : String} {s t : Cluster} {b : α}
    {f : Identifier → Program Cluster SqlError α} :
    (Program.ofExcept (Identifier.of name) >>= f) s = .ok b t ↔
      ∃ i : Identifier, i.name = name ∧ f i s = .ok b t := by
  rw [Program.bind_eq_ok_iff]
  constructor
  · rintro ⟨i, u, hi, hf⟩
    obtain ⟨hof, rfl⟩ := Program.ofExcept_eq_ok_iff.mp hi
    exact ⟨i, Identifier.of_eq_ok_iff.mp hof, hf⟩
  · rintro ⟨i, hi, hf⟩
    exact ⟨i, s, Program.ofExcept_eq_ok_iff.mpr ⟨Identifier.of_eq_ok_iff.mpr hi, rfl⟩, hf⟩

variable {refusal : Refusal} {session : Session} {s t : Cluster}

/-! ## What statements about roles do to a catalog -/

theorem outcome_effect_quiet {st : Statement} (h : st.IsQuiet) :
    ((effectOf session st s).outcome s.catalog).2 = s.catalog := by
  rw [effectOf, Statement.read_quiet h]
  rfl

/-- A role that is to get no others is there afterwards, whether it was before or not. -/
theorem outcome_effect_createRole (role : Identifier) (login : Bool) :
    ((effectOf session (.createRole role login none []) s).outcome s.catalog).2 =
      { s.catalog with roles := s.catalog.roles.insert role.name } := by
  rw [effectOf, Statement.read_createRole, Statement.newRoles_createRole, Program.outcome,
    Catalog.run_createRole]
  by_cases h : role.name ∈ s.catalog.roles
  · rw [if_pos h, NameSet.insert_eq_self h]
  · rw [if_neg h]
    rfl

/-- A grant of a role is refused or taken for one of privileges, or else the role is given. -/
theorem outcome_effect_grantRoles (session : Session) (s : Cluster) (role member : Identifier) :
    ((effectOf session (.grantRoles [role] member) s).outcome s.catalog).2 = s.catalog ∨
      ((effectOf session (.grantRoles [role] member) s).outcome s.catalog).2 =
        s.catalog.addMembership member.name role.name := by
  rw [effectOf, Statement.read_grantRoles, Program.outcome]
  by_cases hon : role.name = "ON"
  · rw [if_pos hon]
    exact .inl rfl
  · rw [if_neg hon, Catalog.run, Catalog.grant_one]
    by_cases hcircle : s.catalog.GoesInCircle s.strict member.name role.name
    · rw [if_pos hcircle]
      exact .inl rfl
    · rw [if_neg hcircle]
      exact .inr rfl

/-- The end of a membership is taken for one of privileges, or else the role is taken away. -/
theorem outcome_effect_revokeRole (session : Session) (s : Cluster) (role member : Identifier) :
    ((effectOf session (.revokeRole role member) s).outcome s.catalog).2 = s.catalog ∨
      ((effectOf session (.revokeRole role member) s).outcome s.catalog).2 =
        s.catalog.dropMembership member.name role.name := by
  rw [effectOf, Statement.read_revokeRole, Program.outcome]
  by_cases hon : role.name = "ON"
  · rw [if_pos hon]
    exact .inl rfl
  · rw [if_neg hon]
    exact .inr rfl

/-! ## Memberships -/

/-- Statements about passwords and privileges keep all memberships. -/
theorem keeps_memberships_of_quiet {st : Statement} (h : st.IsQuiet) :
    Program.Keeps (·.catalog.memberships) ((refusing refusal).run session st) := by
  refine keeps_run fun s e c hc => ?_
  rw [outcome_effect_quiet h] at hc
  rcases hc with rfl | rfl <;> rfl

/-- The creation of a role that is to get no others keeps all memberships. -/
theorem keeps_memberships_of_createRole (role : Identifier) (login : Bool) :
    Program.Keeps (·.catalog.memberships)
      ((refusing refusal).run session (.createRole role login none [])) := by
  refine keeps_run fun s e c hc => ?_
  rw [outcome_effect_createRole] at hc
  rcases hc with rfl | rfl <;> rfl

/-- A role that is granted is held afterwards, unless the grant is taken for one of privileges. -/
theorem grantRole_ok {role member : String}
    (h : (refusing refusal).grantRole session role member s = .ok () t) :
    t.catalog = if role = "ON" then s.catalog else s.catalog.addMembership member role := by
  unfold Server.grantRole at h
  obtain ⟨r, rfl, hmember⟩ := bind_name_eq_ok_iff.mp h
  obtain ⟨m, rfl, hrun⟩ := bind_name_eq_ok_iff.mp hmember
  obtain ⟨-, c, hc, rfl⟩ := run_eq_ok_iff.mp hrun
  rw [effectOf, Statement.read_grantRoles] at hc
  show c = _
  by_cases hon : r.name = "ON"
  · rw [if_pos hon] at hc ⊢
    cases hc
    rfl
  · rw [if_neg hon] at hc ⊢
    rw [Catalog.run, Catalog.grant_one] at hc
    split at hc
    next => cases hc
    next =>
      cases hc
      rfl

/-- A role that is revoked is not held afterwards, unless the statement is taken for one about
privileges. -/
theorem revokeRole_ok {role member : String}
    (h : (refusing refusal).revokeRole session role member s = .ok () t) :
    t.catalog = if role = "ON" then s.catalog else s.catalog.dropMembership member role := by
  unfold Server.revokeRole at h
  obtain ⟨r, rfl, hmember⟩ := bind_name_eq_ok_iff.mp h
  obtain ⟨m, rfl, hrun⟩ := bind_name_eq_ok_iff.mp hmember
  obtain ⟨-, c, hc, rfl⟩ := run_eq_ok_iff.mp hrun
  rw [effectOf, Statement.read_revokeRole] at hc
  show c = _
  by_cases hon : r.name = "ON"
  · rw [if_pos hon] at hc ⊢
    cases hc
    rfl
  · rw [if_neg hon] at hc ⊢
    cases hc
    rfl

end Cluster

end PgSteward
