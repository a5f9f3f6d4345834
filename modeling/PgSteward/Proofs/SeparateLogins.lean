import PgSteward.Proofs.ErrorReports
import PgSteward.Proofs.RoleJoin

/-!
# Users and their login roles

The login role of a user is named after its sanitized name.  So users whose names differ in dots and
underscores only (`sanitize_eq_iff`) have one login role together, and what an update of one of them
gives to it an update of the other takes away.

Updates of users with different login roles stay apart, but for one case: a login role can be a role
that another login role needs.  Of two that need each other, a server that refuses circles gives
only the one that comes first.  `UserUpdate.stayApart_iff` says that there is no other case.
-/

namespace PgSteward

open Program

/-! ## Names -/

/-- Whether two characters are the same, or a dot and an underscore. -/
def CharsAlike (c d : Char) : Prop := c = d ∨ (c = '.' ∧ d = '_') ∨ (c = '_' ∧ d = '.')

/-- Whether two names differ in dots and underscores only. -/
def NamesAlike (name other : String) : Prop :=
  List.Forall₂ CharsAlike name.toList other.toList

/-- Names are sanitized alike when they differ in dots and underscores only. -/
theorem sanitize_eq_iff {name other : String} :
    sanitize name = sanitize other ↔ NamesAlike name other := by
  have hchar : ∀ c d : Char, ((if c = '.' then '_' else c) = if d = '.' then '_' else d) ↔
      CharsAlike c d := by
    intro c d
    unfold CharsAlike
    by_cases hc : c = '.'
    · by_cases hd : d = '.'
      · simp [hc, hd]
      · simp [hc, hd, eq_comm]
    · by_cases hd : d = '.'
      · simp [hc, hd]
      · simp [hc, hd]
  unfold sanitize NamesAlike
  rw [String.ofList_inj, ← List.forall₂_eq_eq_eq, List.forall₂_map_left_iff,
    List.forall₂_map_right_iff]
  simp only [hchar]

/-- The roles that are needed do not depend on the order of the accesses. -/
theorem RequiredRoles.onHost_congr {static : List String} {accesses accesses' : List PlannedAccess}
    (h : ∀ a, a ∈ accesses' ↔ a ∈ accesses) : onHost static accesses' = onHost static accesses := by
  unfold onHost of
  rw [isEmpty_congr h, needsOf_congr h]

namespace Cluster

variable {s t : Cluster} {session : Session} {login role : String}

/-! ## Roles that are needed -/

/-- Whether a login role needs a role that it does not hold and that can be given. -/
def Gains (s : Cluster) (login : String) (required : RequiredRoles) (role : String) : Prop :=
  role ∈ required ∧ role ≠ "ON" ∧ role ∉ s.catalog.rolesOf login

/-- Whether a login role has nothing to be given, and nothing to be taken away. -/
structure Settled (s : Cluster) (login : String) (required : RequiredRoles) : Prop where
  /-- It holds the roles that it needs. -/
  holds : ∀ role ∈ required, role ≠ "ON" → role ∈ s.catalog.rolesOf login
  /-- It needs the managed roles that it holds. -/
  needs : ∀ role ∈ s.catalog.rolesOf login, isManagedRole role = true → role ∈ required

theorem Settled.not_gains {required : RequiredRoles} (h : s.Settled login required) :
    ¬s.Gains login required role := fun ⟨hneeded, hon, hnot⟩ => hnot (h.holds role hneeded hon)

/-- A role can be granted when both names are identifiers, the statement is not refused, and the
membership does not go in a circle. -/
theorem succeeds_grantRole_iff : (server.grantRole session role login).succeeds s = true ↔
    ∃ r m : Identifier, r.name = role ∧ m.name = login ∧
      s.refusal? (Statement.grantRoles [r] m).text = none ∧
      (role = "ON" ∨ ¬s.catalog.GoesInCircle s.strict login role) := by
  have hrun : ∀ r m : Identifier, (∃ u t, server.run session (.grantRoles [r] m) s = .ok u t) ↔
      s.refusal? (Statement.grantRoles [r] m).text = none ∧
        (r.name = "ON" ∨ ¬s.catalog.GoesInCircle s.strict m.name r.name) := by
    intro r m
    rw [← succeeds_iff, succeeds_run_grantRoles, Bool.and_eq_true, Option.isNone_iff_eq_none,
      decide_eq_true_iff]
  rw [succeeds_iff]
  constructor
  · rintro ⟨u, t, h⟩
    obtain ⟨r, rfl, hmember⟩ := bind_name_eq_ok_iff.mp h
    obtain ⟨m, rfl, hgrant⟩ := bind_name_eq_ok_iff.mp hmember
    exact ⟨r, m, rfl, rfl, (hrun r m).mp ⟨u, t, hgrant⟩⟩
  · rintro ⟨r, m, rfl, rfl, h⟩
    obtain ⟨u, t, hgrant⟩ := (hrun r m).mpr h
    exact ⟨u, t, bind_name_eq_ok_iff.mpr ⟨r, rfl, bind_name_eq_ok_iff.mpr ⟨m, rfl, hgrant⟩⟩⟩

end Cluster

namespace Converger

variable {c : Converger Cluster} {session : Session} {login other host role : String}
  {admin : AdminLogin} {accesses accesses' : List PlannedAccess} {s s' t t' : Cluster}

/-! ## Giving a role -/

/-- A role can be given when it can be prepared, if it is managed, and can be granted. -/
theorem succeeds_give (hc : c.server = Cluster.server) (grant : Option ManagedGrant) :
    (c.give session host admin login role grant).succeeds s =
      ((grant.all fun g => (c.prepare host admin role g).succeeds s) &&
        (Cluster.server.grantRole session role login).succeeds s) := by
  unfold give
  rw [hc]
  cases grant with
  | none => rfl
  | some g =>
      show (c.prepare host admin role g >>= _).succeeds s = _
      rw [Option.all_some]
      cases hprepare : c.prepare host admin role g s with
      | ok u t =>
          rw [succeeds_bind_of_ok hprepare, succeeds_of_ok hprepare, Bool.true_and]
          exact succeedsBy_grantRole t s ((keeps_besides_prepare hc).of_ok hprepare)
      | error e t =>
          rw [succeeds_bind_of_error hprepare, succeeds_of_error hprepare, Bool.false_and]

theorem not_goesInCircle_of_give (hc : c.server = Cluster.server) {grant : Option ManagedGrant}
    (h : (c.give session host admin login role grant).succeeds s = true) (hon : role ≠ "ON") :
    ¬s.catalog.GoesInCircle s.strict login role := by
  rw [succeeds_give hc, Bool.and_eq_true] at h
  obtain ⟨r, m, -, -, -, hcircle⟩ := Cluster.succeeds_grantRole_iff.mp h.2
  exact hcircle.resolve_left hon

/-- A role that can be given to a login role can still be given when another one holds other roles,
unless this makes it go in a circle. -/
theorem succeeds_give_of_besides (hc : c.server = Cluster.server) {grant : Option ManagedGrant}
    (hbesides : s'.besides other = s.besides other)
    (hcircle : role ≠ "ON" → ¬s.catalog.GoesInCircle s.strict login role →
      ¬s'.catalog.GoesInCircle s'.strict login role)
    (h : (c.give session host admin login role grant).succeeds s = true) :
    (c.give session host admin login role grant).succeeds s' = true := by
  have hprepare : ∀ g, (c.prepare host admin role g).succeeds s' =
      (c.prepare host admin role g).succeeds s := fun g => succeedsBy_prepare hc _ _ hbesides
  rw [succeeds_give hc, Bool.and_eq_true] at h ⊢
  simp only [hprepare]
  refine ⟨h.1, ?_⟩
  obtain ⟨r, m, hr, hm, hrefusal, hfree⟩ := Cluster.succeeds_grantRole_iff.mp h.2
  refine Cluster.succeeds_grantRole_iff.mpr ⟨r, m, hr, hm, ?_, ?_⟩
  · rw [Cluster.refusal?_congr hbesides, hrefusal]
  · by_cases hon : role = "ON"
    · exact .inl hon
    · exact .inr (hcircle hon (hfree.resolve_left hon))

/-! ## Runs for other login roles -/

/-- After a successful run the login role holds what it held before exactly if there was nothing to
give or to take away. -/
theorem settled_iff (hc : c.server = Cluster.server)
    (h : c.convergeHost login host accesses s = .ok () t) :
    s.Settled login (.onHost c.staticRoles accesses) ↔
      t.catalog.rolesOf login = s.catalog.rolesOf login := by
  have hroles : ∀ role, role ∈ t.catalog.rolesOf login ↔
      (role ∈ RequiredRoles.onHost c.staticRoles accesses ∧
        (role ≠ "ON" ∨ role ∈ s.catalog.rolesOf login)) ∨
      (role ∈ s.catalog.rolesOf login ∧ isManagedRole role = false) := by
    intro role
    rw [rolesOf_convergeHost (hc.trans Cluster.server_eq_refusing) h, if_pos rfl]
  constructor
  · rintro ⟨hholds, hneeds⟩
    refine Std.ExtTreeSet.ext_mem fun role => ?_
    rw [hroles]
    constructor
    · rintro (⟨hneeded, hon | hheld⟩ | ⟨hheld, -⟩)
      · exact hholds role hneeded hon
      · exact hheld
      · exact hheld
    · intro hheld
      cases hmanaged : isManagedRole role with
      | true => exact .inl ⟨hneeds role hheld hmanaged, .inr hheld⟩
      | false => exact .inr ⟨hheld, rfl⟩
  · intro hsame
    rw [hsame] at hroles
    refine ⟨fun role hneeded hon => (hroles role).mpr (.inl ⟨hneeded, .inl hon⟩), ?_⟩
    intro role hheld hmanaged
    rcases (hroles role).mp hheld with ⟨hneeded, -⟩ | ⟨-, hplain⟩
    · exact hneeded
    · rw [hmanaged] at hplain
      cases hplain

/-- Successful runs for the same accesses leave a login role the same roles, whatever others
hold. -/
theorem rolesOf_eq_of_ok (hc : c.server = Cluster.server)
    (h : c.convergeHost login host accesses s = .ok () t)
    (h' : c.convergeHost login host accesses s' = .ok () t')
    (hroles : s'.catalog.rolesOf login = s.catalog.rolesOf login) :
    t'.catalog.rolesOf login = t.catalog.rolesOf login := by
  have hc' := hc.trans Cluster.server_eq_refusing
  refine Std.ExtTreeSet.ext_mem fun role => ?_
  rw [rolesOf_convergeHost hc' h, rolesOf_convergeHost hc' h', if_pos rfl, if_pos rfl, hroles]

/-- A run on a host succeeds when it gets to its steps, and each of them succeeds alone. -/
theorem exists_ok_iff (hc : c.server = Cluster.server) :
    (∃ t, c.convergeHost login host accesses s = .ok () t) ↔
      ∃ admin, c.Reaches login host accesses admin s ∧
        ∀ p ∈ c.stepsOn login host accesses admin s, p.succeeds s = true := by
  have hc' := hc.trans Cluster.server_eq_refusing
  have hsteps : ∀ admin s₁, s₁.catalog.memberships = s.catalog.memberships →
      s₁.besides login = s.besides login →
      ((∃ t, Program.sequence (c.stepsOn login host accesses admin s₁) s₁ = .ok () t) ↔
        ∀ p ∈ c.stepsOn login host accesses admin s, p.succeeds s = true) := by
    intro admin s₁ hkept hbesides
    have hsame : c.stepsOn login host accesses admin s₁ =
        c.stepsOn login host accesses admin s := by
      rw [stepsOn, Catalog.rolesOf, hkept]
      rfl
    have hapart : ∀ p ∈ c.stepsOn login host accesses admin s,
        Keeps (Cluster.besides login) p ∧ SucceedsBy (Cluster.besides login) p :=
      fun p hp => besides_of_mem_steps hc hp
    rw [hsame, ← succeeds_sequence_iff hapart hbesides, succeeds_iff]
    constructor
    · rintro ⟨t, hrun⟩
      exact ⟨(), t, hrun⟩
    · rintro ⟨_, t, hrun⟩
      exact ⟨t, hrun⟩
  constructor
  · rintro ⟨t, h⟩
    obtain ⟨admin, s₁, hlogin, hrequire, hrun⟩ := (convergeHost_eq_ok_iff hc').mp h
    have hreaches : c.Reaches login host accesses admin s :=
      ⟨hlogin, (succeeds_require_connected hc).symm.trans (succeeds_of_ok hrequire)⟩
    obtain ⟨s₂, hrequire', hkept, hbesides, -⟩ := outcome_of_reaches hc hreaches
    cases hrequire.symm.trans hrequire'
    exact ⟨admin, hreaches, (hsteps admin s₁ hkept hbesides).mp ⟨t, hrun⟩⟩
  · rintro ⟨admin, hreaches, hall⟩
    obtain ⟨s₁, hrequire, hkept, hbesides, -⟩ := outcome_of_reaches hc hreaches
    obtain ⟨t, hrun⟩ := (hsteps admin s₁ hkept hbesides).mpr hall
    exact ⟨t, (convergeHost_eq_ok_iff hc').mpr ⟨admin, s₁, hreaches.1, hrequire, hrun⟩⟩

theorem Reaches.of_besides (hc : c.server = Cluster.server)
    (h : c.Reaches login host accesses admin s) (hbesides : s'.besides other = s.besides other) :
    c.Reaches login host accesses admin s' :=
  ⟨h.1, (succeedsBy_require hc _ _ hbesides).trans h.2⟩

/-- A run that succeeds on a host still succeeds when another login role holds other roles, unless
this makes a role that is to be given go in a circle. -/
theorem exists_ok_of_besides (hc : c.server = Cluster.server)
    (h : ∃ t, c.convergeHost login host accesses s = .ok () t)
    (hbesides : s'.besides other = s.besides other)
    (hroles : s'.catalog.rolesOf login = s.catalog.rolesOf login)
    (hcircle : ∀ role, s.Gains login (.onHost c.staticRoles accesses) role →
      ¬s.catalog.GoesInCircle s.strict login role →
      ¬s'.catalog.GoesInCircle s'.strict login role) :
    ∃ t', c.convergeHost login host accesses s' = .ok () t' := by
  obtain ⟨admin, hreaches, hall⟩ := (exists_ok_iff hc).mp h
  have hsame : c.stepsOn login host accesses admin s' = c.stepsOn login host accesses admin s := by
    rw [stepsOn, stepsOn, hroles]
  refine (exists_ok_iff hc).mpr ⟨admin, hreaches.of_besides hc hbesides, fun p hp => ?_⟩
  rw [hsame] at hp
  have hbefore := hall p hp
  rcases List.mem_append.mp hp with hgive | hrevoke
  · obtain ⟨role, hrole, rfl⟩ := List.mem_map.mp hgive
    obtain ⟨hneeded, hnot⟩ := RoleChange.mem_add_iff.mp hrole
    exact succeeds_give_of_besides hc hbesides
      (fun hon hfree => hcircle role ⟨hneeded, hon, hnot⟩ hfree) hbefore
  · obtain ⟨role, -, rfl⟩ := List.mem_map.mp hrevoke
    rw [hc] at hbefore ⊢
    exact (succeedsBy_revokeRole _ _ hbesides).trans hbefore

/-- A run for one login role leaves that for another one as it is, when it can be made: the other
one ends up with the roles that it ends up with alone. -/
theorem exists_ok_after (hc : c.server = Cluster.server) (hne : other ≠ login)
    (hother : c.convergeHost other host accesses' s = .ok () s')
    (h : c.convergeHost login host accesses s = .ok () t)
    (hfree : ¬(s.strict = true ∧ s.Gains other (.onHost c.staticRoles accesses') login ∧
      s.Gains login (.onHost c.staticRoles accesses) other)) :
    ∃ t', c.convergeHost login host accesses s' = .ok () t' ∧
      t'.catalog.rolesOf login = t.catalog.rolesOf login := by
  have hc' := hc.trans Cluster.server_eq_refusing
  have hbesides : s'.besides other = s.besides other :=
    (keeps_besides_convergeHost hc accesses').of_ok hother
  obtain ⟨-, hstrict, hothers⟩ := Cluster.besides_eq_iff.mp hbesides
  have hroles := hothers login hne.symm
  obtain ⟨t', h'⟩ := exists_ok_of_besides hc ⟨t, h⟩ hbesides hroles fun role hgains hbefore => by
    rintro (hself | ⟨hcircles, hheld⟩)
    · exact hbefore (.inl hself)
    · rw [hstrict] at hcircles
      by_cases hrole : role = other
      · -- The other login role holds this one now, so it has just been given to it.
        subst hrole
        rw [rolesOf_convergeHost hc' hother, if_pos rfl] at hheld
        have hnot : login ∉ s.catalog.rolesOf role := fun hheld' =>
          hbefore (.inr ⟨hcircles, hheld'⟩)
        rcases hheld with ⟨hneeded, hon | hheld'⟩ | ⟨hheld', -⟩
        · exact hfree ⟨hcircles, ⟨hneeded, hon, hnot⟩, hgains⟩
        · exact hnot hheld'
        · exact hnot hheld'
      · rw [hothers role hrole] at hheld
        exact hbefore (.inr ⟨hcircles, hheld⟩)
  exact ⟨t', h', rolesOf_eq_of_ok hc h h' hroles⟩

/-- A run for a login role that has been found as it should be changes nothing for another run for
the same login role. -/
theorem exists_ok_after_settled (hc : c.server = Cluster.server)
    (hbefore : c.convergeHost login host accesses' s = .ok () s')
    (hsettled : s.Settled login (.onHost c.staticRoles accesses'))
    (h : c.convergeHost login host accesses s = .ok () t) :
    ∃ t', c.convergeHost login host accesses s' = .ok () t' ∧
      t'.catalog.rolesOf login = t.catalog.rolesOf login := by
  have hbesides : s'.besides login = s.besides login :=
    (keeps_besides_convergeHost hc accesses').of_ok hbefore
  obtain ⟨-, hstrict, hothers⟩ := Cluster.besides_eq_iff.mp hbesides
  have hroles := (settled_iff hc hbefore).mp hsettled
  have hall : ∀ name, s'.catalog.rolesOf name = s.catalog.rolesOf name := fun name => by
    by_cases hname : name = login
    · rw [hname, hroles]
    · exact hothers name hname
  obtain ⟨t', h'⟩ := exists_ok_of_besides hc ⟨t, h⟩ hbesides hroles fun role _ hfree => by
    rwa [Catalog.GoesInCircle, hstrict, hall]
  exact ⟨t', h', rolesOf_eq_of_ok hc h h' hroles⟩

/-- Of two login roles that need each other, a server that refuses circles does not give the first
to the second once the second has been given to the first. -/
theorem not_given_after (hc : c.server = Cluster.server) (hne : other ≠ login)
    (hother : c.convergeHost other host accesses' s = .ok () s')
    (h : c.convergeHost login host accesses s = .ok () t) (hstrict : s.strict = true)
    (hgiven : s.Gains other (.onHost c.staticRoles accesses') login)
    (hgains : s.Gains login (.onHost c.staticRoles accesses) other) :
    other ∉ ((c.convergeHost login host accesses).outcome s').2.catalog.rolesOf login := by
  have hc' := hc.trans Cluster.server_eq_refusing
  have hbesides : s'.besides other = s.besides other :=
    (keeps_besides_convergeHost hc accesses').of_ok hother
  obtain ⟨-, hstrict', hothers⟩ := Cluster.besides_eq_iff.mp hbesides
  have hheld : login ∈ s'.catalog.rolesOf other := by
    rw [rolesOf_convergeHost hc' hother, if_pos rfl]
    exact .inl ⟨hgiven.1, .inl hgiven.2.1⟩
  obtain ⟨admin, hreaches⟩ := reaches_of_ok hc h
  rw [rolesOf_outcome hc (hreaches.of_besides hc hbesides), if_pos rfl, hothers login hne.symm]
  rintro (⟨hbefore, -⟩ | ⟨-, hon, hgive⟩)
  · exact hgains.2.2 hbefore
  · exact not_goesInCircle_of_give hc hgive hon (.inr ⟨hstrict'.trans hstrict, hheld⟩)

end Converger

/-! ## Updates -/

/-- An update of a user at an instant, in a namespace. -/
structure UserUpdate where
  now : Instant
  space : String
  spec : UserSpec

namespace UserUpdate

variable {τ : Type} (settings : Settings) (l : Lookups) (store : PolicyStore τ)

/-- The login role of the user. -/
def login (u : UserUpdate) : String := settings.rolePrefix ++ sanitize u.spec.name

/-- The roles that the login role needs for the intents of the user. -/
def required (u : UserUpdate) : RequiredRoles :=
  .onHost settings.staticRoles
    ((l.under settings).planned u.now u.space (Intent.ofUser u.spec.read u.spec.write))

/-- Brings the user about. -/
def run (u : UserUpdate) : Program (Cluster × τ) Error Unit :=
  (settings.services (l.surroundings.withStore store) u.now).syncUser u.space u.spec

/-- Gives the user its access only. -/
def grants (u : UserUpdate) : Program Cluster Error Unit :=
  settings.grantsOf l.surroundings u.now u.space u.spec

/-- What is left after an update. -/
def after (u : UserUpdate) (p : Cluster × τ) : Cluster × τ :=
  ((u.run settings l store).outcome p).2

/-- Whether what an update comes to for its login role is what a run on a host comes to. -/
structure IsRunOn (u : UserUpdate) (host : String) (accesses : List PlannedAccess) : Prop where
  required : RequiredRoles.onHost settings.staticRoles accesses = u.required settings l
  after : ∀ p, (u.after settings l store p).1 = (((settings.converger l.surroundings).convergeHost
    (u.login settings) host accesses).outcome p.1).2
  grants : ∀ s t, (settings.converger l.surroundings).convergeHost (u.login settings) host accesses
    s = .ok () t → (u.grants settings l).succeeds s = true

variable {settings l store} {a b u : UserUpdate} {host : String} {p : Cluster × τ}
  {accesses accesses' : List PlannedAccess}

/-- An update that succeeds is of a user with a name, and gives it its access. -/
theorem grants_of_run (h : (u.run settings l store).succeeds p = true) :
    u.spec.name.isEmpty = false ∧ (u.grants settings l).succeeds p.1 = true := by
  cases hname : u.spec.name.isEmpty with
  | true =>
      unfold run Services.syncUser at h
      rw [hname] at h
      cases h
  | false =>
      have houtcome := Services.outcome_syncUser settings l.surroundings store u.now u.space u.spec
        p.1 p.2 hname
      have hok := (congrArg Prod.fst houtcome).symm.trans (outcome_eq_ok_iff.mpr h)
      rw [Error.ofAll_eq_ok_iff, List.append_eq_nil_iff, Option.toList_eq_nil_iff,
        errorOf_eq_none_iff] at hok
      exact ⟨rfl, outcome_eq_ok_iff.mp hok.1⟩

/-- With a login on one host only, an update that succeeds is a run on this host that succeeds. -/
theorem exists_run (hsingle : settings.logins.keys = [host])
    (h : (u.run settings l store).succeeds p = true) :
    ∃ accesses t, u.IsRunOn settings l store host accesses ∧
      (settings.converger l.surroundings).convergeHost (u.login settings) host accesses p.1 =
        .ok () t := by
  obtain ⟨hname, hgrants⟩ := grants_of_run h
  obtain ⟨plan, hplan, hmem⟩ := (l.under settings).exists_plan (σ := Cluster) (ε := Error) u.now
    u.space u.spec.read u.spec.write
  let call : SyncCall :=
    { granter := (settings.services l.surroundings u.now).granter, now := u.now, space := u.space
      sanitized := sanitize u.spec.name, reads := u.spec.read, writes := u.spec.write }
  obtain ⟨_, t, hcall⟩ := succeeds_iff.mp hgrants
  obtain ⟨found, s₁, hfound, herrors, hrun⟩ :=
    SyncCall.run_ok (show call.run p.1 = .ok () t from hcall)
  cases (hplan p.1).symm.trans hfound
  have hall := Converger.host_of_converge_ok Cluster.server_eq_refusing hsingle hrun
  refine ⟨plan.access.all, t, ⟨RequiredRoles.onHost_congr hmem, fun q => ?_, fun s t' hs => ?_⟩,
    Converger.converge_single_ok Cluster.server_eq_refusing hsingle hrun⟩
  · rw [UserUpdate.after, run, Services.outcome_syncUser settings l.surroundings store u.now
      u.space u.spec q.1 q.2 hname]
    exact (Granter.outcome_sync (hplan q.1)).trans
      (Converger.outcome_converge_single hsingle hall)
  · exact succeeds_of_ok (Granter.sync_of_ok (hplan s) herrors
      ((Converger.converge_single_eq_ok_iff hsingle hall).mpr hs))

theorem IsRunOn.after_eq (h : u.IsRunOn settings l store host accesses) {t : Cluster}
    (hrun : (settings.converger l.surroundings).convergeHost (u.login settings) host accesses p.1 =
      .ok () t) : (u.after settings l store p).1 = t := by
  rw [h.after, outcome, hrun]

/-- An update changes the roles of its own login role only. -/
theorem IsRunOn.rolesOf_after (h : u.IsRunOn settings l store host accesses) {name : String}
    (hname : name ≠ u.login settings) :
    (u.after settings l store p).1.catalog.rolesOf name = p.1.catalog.rolesOf name := by
  have hkeeps : Keeps (Cluster.besides (u.login settings))
      ((settings.converger l.surroundings).convergeHost (u.login settings) host accesses) :=
    Converger.keeps_besides_convergeHost rfl accesses
  rw [h.after]
  exact (Cluster.besides_eq_iff.mp (hkeeps p.1)).2.2 name hname

/-! ## Two updates -/

variable (settings l store)

/-- Whether two updates stay apart: neither changes the roles of the login role of the other, and
both login roles end up with the same roles in either order. -/
structure StayApart (a b : UserUpdate) (p : Cluster × τ) : Prop where
  first : (a.after settings l store p).1.catalog.rolesOf (b.login settings) =
    p.1.catalog.rolesOf (b.login settings)
  second : (b.after settings l store p).1.catalog.rolesOf (a.login settings) =
    p.1.catalog.rolesOf (a.login settings)
  order : ∀ u ∈ [a, b],
    (b.after settings l store (a.after settings l store p)).1.catalog.rolesOf (u.login settings) =
      (a.after settings l store (b.after settings l store p)).1.catalog.rolesOf (u.login settings)

/-- Whether an update comes to the same for its user after another one: the access is given, and
the login role ends up with the roles that it ends up with otherwise. -/
structure Unhindered (a b : UserUpdate) (p : Cluster × τ) : Prop where
  grants : (b.grants settings l).succeeds (a.after settings l store p).1 = true
  roles : (b.after settings l store (a.after settings l store p)).1.catalog.rolesOf
    (b.login settings) = (b.after settings l store p).1.catalog.rolesOf (b.login settings)

/-- Whether two updates need the login roles of each other, on a server that refuses circles. -/
def InCircle (a b : UserUpdate) (s : Cluster) : Prop :=
  s.strict = true ∧ s.Gains (a.login settings) (a.required settings l) (b.login settings) ∧
    s.Gains (b.login settings) (b.required settings l) (a.login settings)

variable {settings l store}

theorem InCircle.symm {s : Cluster} (h : a.InCircle settings l b s) : b.InCircle settings l a s :=
  ⟨h.1, h.2.2, h.2.1⟩

theorem login_eq_iff :
    a.login settings = b.login settings ↔ NamesAlike a.spec.name b.spec.name := by
  rw [login, login, String.append_right_inj, sanitize_eq_iff]

/-- An update is unhindered when its run on the host still succeeds after the run of the other
update, and leaves its login role the same roles. -/
theorem unhindered_of_runs {t t' : Cluster} (hfirst : a.IsRunOn settings l store host accesses)
    (hrun : (settings.converger l.surroundings).convergeHost (a.login settings) host accesses p.1 =
      .ok () t)
    (hsecond : b.IsRunOn settings l store host accesses')
    (hrun' : (settings.converger l.surroundings).convergeHost (b.login settings) host accesses'
      p.1 = .ok () t')
    (h : ∃ v, (settings.converger l.surroundings).convergeHost (b.login settings) host accesses' t =
      .ok () v ∧ v.catalog.rolesOf (b.login settings) = t'.catalog.rolesOf (b.login settings)) :
    Unhindered settings l store a b p := by
  obtain ⟨v, hv, hroles⟩ := h
  rw [← hfirst.after_eq hrun] at hv
  refine ⟨hsecond.grants _ _ hv, ?_⟩
  rw [hsecond.after_eq hv, hsecond.after_eq hrun', hroles]

/-- An update is unhindered by an update with another login role that it is not in a circle with. -/
theorem unhindered_of_ne (hsingle : settings.logins.keys = [host])
    (ha : (a.run settings l store).succeeds p = true)
    (hb : (b.run settings l store).succeeds p = true)
    (hne : a.login settings ≠ b.login settings) (hfree : ¬a.InCircle settings l b p.1) :
    Unhindered settings l store a b p := by
  obtain ⟨accesses, t, hfirst, hrun⟩ := exists_run hsingle ha
  obtain ⟨accesses', t', hsecond, hrun'⟩ := exists_run hsingle hb
  rw [InCircle, ← hfirst.required, ← hsecond.required] at hfree
  exact unhindered_of_runs hfirst hrun hsecond hrun'
    (Converger.exists_ok_after rfl hne hrun hrun' hfree)

/-- An update is unhindered by an update with the same login role that finds it as it should be. -/
theorem unhindered_of_settled (hsingle : settings.logins.keys = [host])
    (ha : (a.run settings l store).succeeds p = true)
    (hb : (b.run settings l store).succeeds p = true)
    (heq : a.login settings = b.login settings)
    (hsettled : p.1.Settled (a.login settings) (a.required settings l)) :
    Unhindered settings l store a b p := by
  obtain ⟨accesses, t, hfirst, hrun⟩ := exists_run hsingle ha
  obtain ⟨accesses', t', hsecond, hrun'⟩ := exists_run hsingle hb
  have hsame := hrun
  rw [← hfirst.required, heq] at hsettled
  rw [heq] at hsame
  exact unhindered_of_runs hfirst hrun hsecond hrun'
    (Converger.exists_ok_after_settled rfl hsame hsettled hrun')

/-- An update leaves its own login role the roles that it holds exactly if it finds it as it should
be. -/
theorem settled_iff_after (hsingle : settings.logins.keys = [host])
    (h : (u.run settings l store).succeeds p = true) :
    p.1.Settled (u.login settings) (u.required settings l) ↔
      (u.after settings l store p).1.catalog.rolesOf (u.login settings) =
        p.1.catalog.rolesOf (u.login settings) := by
  obtain ⟨accesses, t, hisRun, hrun⟩ := exists_run hsingle h
  rw [← hisRun.required, hisRun.after_eq hrun]
  exact Converger.settled_iff rfl hrun

/-- Updates of users with a login role in common stay apart only when both find it as it should
be. -/
theorem StayApart.settled (h : StayApart settings l store a b p)
    (hsingle : settings.logins.keys = [host])
    (ha : (a.run settings l store).succeeds p = true)
    (hb : (b.run settings l store).succeeds p = true)
    (heq : a.login settings = b.login settings) :
    p.1.Settled (a.login settings) (a.required settings l) ∧
      p.1.Settled (b.login settings) (b.required settings l) := by
  refine ⟨(settled_iff_after hsingle ha).mpr ?_, (settled_iff_after hsingle hb).mpr ?_⟩
  · rw [heq]
    exact h.first
  · rw [← heq]
    exact h.second

/-- Updates in a circle do not stay apart: the one that comes first is given the login role of the
other. -/
theorem StayApart.not_inCircle (h : StayApart settings l store a b p)
    (hsingle : settings.logins.keys = [host])
    (ha : (a.run settings l store).succeeds p = true)
    (hb : (b.run settings l store).succeeds p = true) : ¬a.InCircle settings l b p.1 := by
  intro hcircle
  by_cases heq : a.login settings = b.login settings
  · exact (h.settled hsingle ha hb heq).1.not_gains hcircle.2.1
  · obtain ⟨accesses, t, hfirst, hrun⟩ := exists_run hsingle ha
    obtain ⟨accesses', t', hsecond, hrun'⟩ := exists_run hsingle hb
    obtain ⟨hstrict, hgains, hgains'⟩ := hcircle
    rw [← hfirst.required] at hgains
    rw [← hsecond.required] at hgains'
    have hnot := Converger.not_given_after rfl heq hrun hrun' hstrict hgains hgains'
    have hgiven : a.login settings ∈ t'.catalog.rolesOf (b.login settings) := by
      rw [Converger.rolesOf_convergeHost Cluster.server_eq_refusing hrun', if_pos rfl]
      exact .inl ⟨hgains'.1, .inl hgains'.2.1⟩
    have horder := h.order b (by simp)
    rw [hfirst.rolesOf_after (Ne.symm heq), hsecond.after_eq hrun', hsecond.after,
      hfirst.after_eq hrun] at horder
    rw [horder] at hnot
    exact hnot hgiven

/-- An update that is unhindered by another one keeps the roles of the other login role, before the
other one and after it.  If they have it in common, both are to find it as it should be. -/
theorem Unhindered.rolesOf_other (h : Unhindered settings l store a b p)
    (hsingle : settings.logins.keys = [host])
    (ha : (a.run settings l store).succeeds p = true)
    (hb : (b.run settings l store).succeeds p = true)
    (hsettled : a.login settings = b.login settings →
      p.1.Settled (a.login settings) (a.required settings l) ∧
        p.1.Settled (b.login settings) (b.required settings l)) :
    (b.after settings l store p).1.catalog.rolesOf (a.login settings) =
        p.1.catalog.rolesOf (a.login settings) ∧
      (b.after settings l store (a.after settings l store p)).1.catalog.rolesOf
          (a.login settings) =
        (a.after settings l store p).1.catalog.rolesOf (a.login settings) := by
  by_cases heq : a.login settings = b.login settings
  · obtain ⟨hsettledA, hsettledB⟩ := hsettled heq
    have hkeptA := (settled_iff_after hsingle ha).mp hsettledA
    have hkeptB := (settled_iff_after hsingle hb).mp hsettledB
    rw [hkeptA, heq]
    exact ⟨hkeptB, h.roles.trans hkeptB⟩
  · obtain ⟨accesses, t, hisRun, -⟩ := exists_run hsingle hb
    exact ⟨hisRun.rolesOf_after heq, hisRun.rolesOf_after heq⟩

/-- Two updates that succeed on the same cluster, with a login on one host, stay apart unless the
users have a login role in common that one of them does not find as it should be, or need the login
roles of each other.  If they stay apart, neither hinders the other. -/
theorem stayApart_iff (settings : Settings) (l : Lookups) (store : PolicyStore τ) (host : String)
    (a b : UserUpdate) (p : Cluster × τ) (hsingle : settings.logins.keys = [host])
    (ha : (a.run settings l store).succeeds p = true)
    (hb : (b.run settings l store).succeeds p = true) :
    (StayApart settings l store a b p ↔
      (NamesAlike a.spec.name b.spec.name →
        p.1.Settled (a.login settings) (a.required settings l) ∧
          p.1.Settled (b.login settings) (b.required settings l)) ∧
      ¬a.InCircle settings l b p.1) ∧
    (StayApart settings l store a b p →
      Unhindered settings l store a b p ∧ Unhindered settings l store b a p) := by
  rw [← login_eq_iff]
  have hunhindered : (a.login settings = b.login settings →
        p.1.Settled (a.login settings) (a.required settings l) ∧
          p.1.Settled (b.login settings) (b.required settings l)) →
      ¬a.InCircle settings l b p.1 →
      Unhindered settings l store a b p ∧ Unhindered settings l store b a p := by
    intro hsettled hfree
    by_cases heq : a.login settings = b.login settings
    · exact ⟨unhindered_of_settled hsingle ha hb heq (hsettled heq).1,
        unhindered_of_settled hsingle hb ha heq.symm (hsettled heq).2⟩
    · exact ⟨unhindered_of_ne hsingle ha hb heq hfree,
        unhindered_of_ne hsingle hb ha (Ne.symm heq) fun h => hfree h.symm⟩
  constructor
  · constructor
    · exact fun h => ⟨h.settled hsingle ha hb, h.not_inCircle hsingle ha hb⟩
    · rintro ⟨hsettled, hfree⟩
      obtain ⟨hab, hba⟩ := hunhindered hsettled hfree
      obtain ⟨hkeptA, hlaterA⟩ := hab.rolesOf_other hsingle ha hb hsettled
      obtain ⟨hkeptB, hlaterB⟩ :=
        hba.rolesOf_other hsingle hb ha fun heq => (hsettled heq.symm).symm
      refine ⟨hkeptB, hkeptA, fun u hu => ?_⟩
      rw [List.mem_pair] at hu
      rcases hu with rfl | rfl
      · rw [hlaterA, hba.roles]
      · rw [hlaterB, hab.roles]
  · exact fun h => hunhindered (h.settled hsingle ha hb) (h.not_inCircle hsingle ha hb)

/-! ## Two users with one login role -/

/-- An update of a user of the shop who may read some databases. -/
def inShop (name : String) (reads : List AccessIntent) : UserUpdate where
  now := writeCall.now
  space := "shop"
  spec := { name, read := reads }

/-- An update of a user with a dot in its name, who may read the orders. -/
def dotted : UserUpdate := inShop "a.b" [ordersIntent]

/-- An update of a user with an underscore instead, who may do nothing. -/
def underscored : UserUpdate := inShop "a_b" []

/-- An update of another user, who may read the orders. -/
def bob : UserUpdate := inShop "bob" [ordersIntent]

/-- Brings a user of the shop about. -/
def shopRun (u : UserUpdate) : Program (Cluster × PolicyMemory) Error Unit :=
  u.run shopSettings Lookups.shopLookups PolicyMemory.store

/-- Whether two updates of users of the shop stay apart. -/
def ShopApart (a b : UserUpdate) (p : Cluster × PolicyMemory) : Prop :=
  StayApart shopSettings Lookups.shopLookups PolicyMemory.store a b p

/-- Nobody has been brought about, on a server that refuses circles. -/
def emptyShop : Cluster × PolicyMemory := ({ strict := true }, {})

/-- What is left when the user with the dot has been brought about. -/
def dottedShop : Cluster × PolicyMemory := (dotted.shopRun.outcome emptyShop).2

/-- Users with different login roles stay apart. -/
theorem dotted_apart_from_bob :
    shopSettings.logins.keys = ["db:5432"] ∧ dotted.shopRun.succeeds emptyShop = true ∧
      bob.shopRun.succeeds emptyShop = true ∧ dotted.ShopApart bob emptyShop ∧
      Unhindered shopSettings Lookups.shopLookups PolicyMemory.store dotted bob emptyShop := by
  have hsingle : shopSettings.logins.keys = ["db:5432"] := by decide +kernel
  have hdotted : dotted.shopRun.succeeds emptyShop = true := by decide +kernel
  have hbob : bob.shopRun.succeeds emptyShop = true := by decide +kernel
  have hlogins : dotted.login shopSettings ≠ bob.login shopSettings := by decide +kernel
  have hneeded : bob.login shopSettings ∉ dotted.required shopSettings Lookups.shopLookups := by
    decide +kernel
  have h := stayApart_iff shopSettings Lookups.shopLookups PolicyMemory.store "db:5432" dotted bob
    emptyShop hsingle hdotted hbob
  have hcircle : ¬dotted.InCircle shopSettings Lookups.shopLookups bob emptyShop.1 :=
    fun ⟨_, hgains, _⟩ => hneeded hgains.1
  have happart : dotted.ShopApart bob emptyShop :=
    h.1.mpr ⟨fun halike => absurd (login_eq_iff.mpr halike) hlogins, hcircle⟩
  exact ⟨hsingle, hdotted, hbob, happart, (h.2 happart).1⟩

/-- Users whose names differ in a dot and an underscore do not: an update of the one takes away what
the other may do. -/
theorem dotted_not_apart_from_underscored :
    shopSettings.logins.keys = ["db:5432"] ∧ dotted.spec.name ≠ underscored.spec.name ∧
      dotted.shopRun.succeeds dottedShop = true ∧ underscored.shopRun.succeeds dottedShop = true ∧
      "orders_read" ∈ dottedShop.1.catalog.rolesOf (dotted.login shopSettings) ∧
      "orders_read" ∉ (underscored.shopRun.outcome dottedShop).2.1.catalog.rolesOf
        (dotted.login shopSettings) ∧
      ¬dotted.ShopApart underscored dottedShop := by
  have hheld : "orders_read" ∈ dottedShop.1.catalog.rolesOf (dotted.login shopSettings) := by
    decide +kernel
  have hlost : "orders_read" ∉ (underscored.shopRun.outcome dottedShop).2.1.catalog.rolesOf
      (dotted.login shopSettings) := by decide +kernel
  refine ⟨by decide +kernel, by decide, by decide +kernel, by decide +kernel, hheld, hlost, ?_⟩
  intro h
  have hsecond : (underscored.shopRun.outcome dottedShop).2.1.catalog.rolesOf
      (dotted.login shopSettings) = dottedShop.1.catalog.rolesOf (dotted.login shopSettings) :=
    h.second
  rw [hsecond] at hlost
  exact hlost hheld

end UserUpdate

end PgSteward
