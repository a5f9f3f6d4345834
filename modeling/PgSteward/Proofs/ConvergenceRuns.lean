import PgSteward.Access.Convergence
import PgSteward.Proofs.ClusterRoles
import PgSteward.Proofs.NeededRoles

/-!
# Runs of convergence

When the roles of a login role have been made those that it needs on a host, the login role holds
exactly the roles that it needs and those of its former roles that are not managed
(`rolesOf_convergeHost`).  So the managed roles that it holds tell nothing of its past.
-/

namespace PgSteward

namespace Program

variable {σ ε ε' : Type}

/-- Programs have no failures to collect exactly when they succeed one after the other. -/
theorem gather_eq_nil_iff {ps : List (Program σ ε Unit)} {s t : σ} :
    (gather ps : Program σ ε' (List ε)) s = .ok [] t ↔ sequence ps s = .ok () t := by
  induction ps generalizing s with
  | nil =>
      show (pure [] : Program σ ε' (List ε)) s = _ ↔ (pure () : Program σ ε Unit) s = _
      simp [run_pure]
  | cons p rest ih =>
      cases hp : p s with
      | ok u s₁ =>
          rw [sequence, bind_of_ok hp, ← ih]
          simp only [gather, hp]
      | error e s₁ =>
          obtain ⟨es, s₂, hrest⟩ : ∃ es s₂,
              (gather rest : Program σ ε' (List ε)) s₁ = .ok es s₂ := gather_ok rest s₁
          rw [sequence, bind_of_error hp]
          simp [gather, hp, hrest]

end Program

theorem Error.combine_eq_none_iff {errors : List Error} : combine errors = none ↔ errors = [] := by
  unfold combine
  split <;> simp_all

/-- Lists of the same items are empty or not alike. -/
theorem isEmpty_congr {α : Type} {l l' : List α} (h : ∀ a, a ∈ l ↔ a ∈ l') :
    l.isEmpty = l'.isEmpty := by
  rw [Bool.eq_iff_iff, List.isEmpty_iff, List.isEmpty_iff, List.eq_nil_iff_forall_not_mem,
    List.eq_nil_iff_forall_not_mem]
  exact forall_congr' fun a => not_congr (h a)

/-- The roles that a login role needs for its accesses on a host.  Without an access it needs
none, not even the static roles. -/
def RequiredRoles.onHost (static : List String) (accesses : List PlannedAccess) : RequiredRoles :=
  if accesses.isEmpty then ∅ else of static accesses

theorem RequiredRoles.mem_onHost_congr {static : List String}
    {accesses accesses' : List PlannedAccess} (h : ∀ a, a ∈ accesses ↔ a ∈ accesses')
    (role : String) :
    role ∈ onHost static accesses ↔ role ∈ onHost static accesses' := by
  unfold onHost
  rw [isEmpty_congr h]
  split
  next => rfl
  next => simp only [mem_of_iff_exists_access, h]

namespace RoleChange

variable {existing : NameSet} {required : RequiredRoles} {role : String}

/-- The roles to give are those that are needed and not there. -/
theorem mem_add_iff :
    role ∈ (RoleChange.of existing.toList required).add ↔ role ∈ required ∧ role ∉ existing := by
  rw [RoleChange.of, List.mem_filter, Std.ExtTreeMap.mem_keys]
  simp

/-- The roles to take away are the managed ones that are there and not needed. -/
theorem mem_remove_iff :
    role ∈ (RoleChange.of existing.toList required).remove ↔
      role ∈ existing ∧ isManagedRole role = true ∧ role ∉ required := by
  rw [RoleChange.of, List.mem_mergeSort, List.mem_filter, Std.ExtTreeSet.mem_toList,
    Bool.and_eq_true, Bool.not_eq_true', ← Bool.not_eq_true, Std.ExtTreeMap.contains_iff_mem]

end RoleChange

/-- Works on the roles of logins on a cluster. -/
def Converger.inMemory (logins : NameMap AdminLogin) (staticRoles : List String)
    (adminDatabase : String) : Converger Cluster :=
  { server := Cluster.server, logins, staticRoles, adminDatabase }

namespace Converger

variable {c : Converger Cluster} {refusal : Cluster.Refusal} {session : Session}
  {login host role : String} {admin : AdminLogin} {s t : Cluster}

/-! ## Giving and taking roles -/

/-- The grants on the schemas of a managed role keep what grants of privileges keep. -/
theorem keeps_grantSchemas {τ : Type} {view : Cluster → τ} {grant : ManagedGrant}
    (husage : ∀ schema role, Program.Keeps view (c.server.run session (.grantUsage schema role)))
    (htables : ∀ privileges schema role,
      Program.Keeps view (c.server.run session (.grantTables privileges schema role)))
    (schemas : List String) : Program.Keeps view (c.grantSchemas session role grant schemas) := by
  induction schemas with
  | nil => exact Program.keeps_pure ()
  | cons schema rest ih =>
      refine Program.keeps_bind ?_ fun _ => Program.keeps_bind ?_ fun _ => ih
      · exact Program.keeps_bind (Program.keeps_ofExcept _) fun s =>
          Program.keeps_bind (Program.keeps_ofExcept _) fun r => husage s r
      · exact Program.keeps_bind (Program.keeps_ofExcept _) fun s =>
          Program.keeps_bind (Program.keeps_ofExcept _) fun r => htables _ s r

/-- The preparation of a managed role keeps what connections, the creation of a role and grants of
privileges keep. -/
theorem keeps_prepare {τ : Type} {view : Cluster → τ} {grant : ManagedGrant}
    (hconnect : ∀ database, Program.Keeps view (c.server.connect (.admin host database admin)))
    (hcreate : ∀ session role,
      Program.Keeps view (c.server.run session (.createRole role false none [])))
    (hquiet : ∀ session st, st.IsQuiet → Program.Keeps view (c.server.run session st))
    (hclose : ∀ session, Program.Keeps view (c.server.close session)) :
    Program.Keeps view (c.prepare host admin role grant) := by
  refine Program.keeps_bind (hconnect _) fun session => Program.keeps_bind ?_ fun _ =>
    Program.keeps_bind ?_ fun _ => Program.keeps_bind ?_ fun _ => hclose session
  · exact Server.keeps_ensureRole fun role => hcreate session role
  · exact Program.keeps_bind (Program.keeps_ofExcept _) fun d =>
      Program.keeps_bind (Program.keeps_ofExcept _) fun r => hquiet session _ trivial
  · exact keeps_grantSchemas (fun s r => hquiet session _ trivial)
      (fun p s r => hquiet session _ trivial) _

/-- The preparation of a managed role keeps all memberships. -/
theorem keeps_memberships_prepare (hc : c.server = Cluster.refusing refusal) (host : String)
    (admin : AdminLogin) (role : String) (grant : ManagedGrant) :
    Program.Keeps (·.catalog.memberships) (c.prepare host admin role grant) := by
  refine keeps_prepare ?_ ?_ ?_ ?_
  · rw [hc]
    exact fun target s => rfl
  · rw [hc]
    exact fun session role => Cluster.keeps_memberships_of_createRole role false
  · rw [hc]
    exact fun session st hst => Cluster.keeps_memberships_of_quiet hst
  · rw [hc]
    exact fun session s => rfl

/-- A role that is given is held by the login role afterwards, and by no other that did not hold it
before. -/
theorem give_ok (hc : c.server = Cluster.refusing refusal) {grant : Option ManagedGrant}
    (h : c.give session host admin login role grant s = .ok () t) (other r : String) :
    r ∈ t.catalog.rolesOf other ↔
      r ∈ s.catalog.rolesOf other ∨ (other = login ∧ r = role ∧ r ≠ "ON") := by
  obtain ⟨s₁, hkept, hgrant⟩ : ∃ s₁ : Cluster,
      s₁.catalog.memberships = s.catalog.memberships ∧
        c.server.grantRole session role login s₁ = .ok () t := by
    cases grant with
    | none => exact ⟨s, rfl, h⟩
    | some grant =>
        obtain ⟨u, s₁, hprepare, hgrant⟩ := Program.bind_eq_ok_iff.mp h
        exact ⟨s₁, (keeps_memberships_prepare hc host admin role grant).of_ok hprepare, hgrant⟩
  have hsame : s₁.catalog.rolesOf other = s.catalog.rolesOf other := by
    rw [Catalog.rolesOf, hkept, Catalog.rolesOf]
  rw [hc] at hgrant
  rw [Cluster.grantRole_ok hgrant]
  by_cases hon : role = "ON"
  · rw [if_pos hon, hsame]
    constructor
    · exact .inl
    · rintro (hr | ⟨-, rfl, hne⟩)
      · exact hr
      · exact absurd hon hne
  · rw [if_neg hon, Catalog.rolesOf_addMembership, hsame]
    by_cases hlogin : login = other
    · rw [if_pos hlogin, Std.ExtTreeSet.mem_insert]
      rw [Std.LawfulEqCmp.compare_eq_iff_eq]
      constructor
      · rintro (rfl | hr)
        · exact .inr ⟨hlogin.symm, rfl, hon⟩
        · exact .inl hr
      · rintro (hr | ⟨-, rfl, -⟩)
        · exact .inr hr
        · exact .inl rfl
    · rw [if_neg hlogin]
      constructor
      · exact .inl
      · rintro (hr | ⟨rfl, -, -⟩)
        · exact hr
        · exact absurd rfl hlogin

/-- The roles that are given are held by the login role afterwards. -/
theorem gives_ok (hc : c.server = Cluster.refusing refusal) {roles : List String}
    {grant : String → Option ManagedGrant}
    (h : Program.sequence
      (roles.map fun role => c.give session host admin login role (grant role)) s = .ok () t)
    (other r : String) :
    r ∈ t.catalog.rolesOf other ↔
      r ∈ s.catalog.rolesOf other ∨ (other = login ∧ r ∈ roles ∧ r ≠ "ON") := by
  induction roles generalizing s with
  | nil =>
      cases h
      simp
  | cons role rest ih =>
      rw [List.map_cons, Program.sequence] at h
      obtain ⟨u, s₁, hgive, hrest⟩ := Program.bind_eq_ok_iff.mp h
      rw [ih hrest, give_ok hc hgive, List.mem_cons]
      grind

/-- The roles that are taken away are not held by the login role afterwards. -/
theorem revokes_ok (hc : c.server = Cluster.refusing refusal) {roles : List String}
    (h : Program.sequence (roles.map fun role => c.server.revokeRole session role login) s =
      .ok () t) (other r : String) :
    r ∈ t.catalog.rolesOf other ↔
      r ∈ s.catalog.rolesOf other ∧ ¬(other = login ∧ r ∈ roles ∧ r ≠ "ON") := by
  induction roles generalizing s with
  | nil =>
      cases h
      simp
  | cons role rest ih =>
      rw [List.map_cons, Program.sequence] at h
      obtain ⟨u, s₁, hrevoke, hrest⟩ := Program.bind_eq_ok_iff.mp h
      rw [hc] at hrevoke
      rw [ih hrest, Cluster.revokeRole_ok hrevoke, List.mem_cons]
      by_cases hon : role = "ON"
      · rw [if_pos hon]
        grind
      · rw [if_neg hon, Catalog.rolesOf_dropMembership]
        by_cases hlogin : login = other
        · rw [if_pos hlogin, Std.ExtTreeSet.mem_erase]
          grind
        · rw [if_neg hlogin]
          grind

/-! ## The roles on a host -/

theorem loginFor_eq_ok_iff {logins : NameMap AdminLogin} :
    loginFor logins host = .ok admin ↔ logins[host]? = some admin := by
  unfold loginFor
  cases logins[host]? with
  | none => simp
  | some a => simp

/-- Finding out which roles are needed keeps what the creation of a login role keeps. -/
theorem keeps_require {τ : Type} {view : Cluster → τ} {accesses : List PlannedAccess}
    (h : ∀ role, Program.Keeps view (c.server.run session (.createRole role true none []))) :
    Program.Keeps view (c.require session login accesses) := by
  unfold require
  split
  · exact Program.keeps_pure _
  · exact Program.keeps_bind (Server.keeps_ensureRole h) fun _ => Program.keeps_pure _

theorem require_ok {σ : Type} {c : Converger σ} {s t : σ} {accesses : List PlannedAccess}
    {required : RequiredRoles} (h : c.require session login accesses s = .ok required t) :
    required = .onHost c.staticRoles accesses := by
  unfold require at h
  cases hempty : accesses.isEmpty with
  | true =>
      rw [hempty] at h
      cases h
      rw [RequiredRoles.onHost, hempty]
      rfl
  | false =>
      rw [hempty] at h
      obtain ⟨u, s₁, hrole, hrest⟩ := Program.bind_eq_ok_iff.mp h
      cases hrest
      rw [RequiredRoles.onHost, hempty]
      rfl

/-- A run on a host succeeds when the roles that are needed can be found out, over a connection
more, and then all steps succeed. -/
theorem convergeHost_eq_ok_iff (hc : c.server = Cluster.refusing refusal)
    {accesses : List PlannedAccess} :
    c.convergeHost login host accesses s = .ok () t ↔
      ∃ admin s₁, c.logins[host]? = some admin ∧
        c.require (.opened (.admin host c.adminDatabase admin)) login accesses
            { s with connections := s.connections ++ [.admin host c.adminDatabase admin] } =
          .ok (.onHost c.staticRoles accesses) s₁ ∧
        Program.sequence (c.steps (.opened (.admin host c.adminDatabase admin)) host admin login
          (.onHost c.staticRoles accesses)
          (.of (s₁.catalog.rolesOf login).toList (.onHost c.staticRoles accesses))) s₁ =
        .ok () t := by
  unfold convergeHost
  constructor
  · intro h
    obtain ⟨admin, s₀, hadmin, hrest⟩ := Program.bind_eq_ok_iff.mp h
    obtain ⟨hlogin, rfl⟩ := Program.ofExcept_eq_ok_iff.mp hadmin
    obtain ⟨errors, s₄, hwork, hfail⟩ := Program.bind_eq_ok_iff.mp hrest
    obtain ⟨hnone, rfl⟩ := Program.failIf_eq_ok_iff.mp hfail
    rw [Error.combine_eq_none_iff, List.map_eq_nil_iff] at hnone
    subst hnone
    rw [Program.mapError_eq_ok_iff] at hwork
    obtain ⟨session, s₁, hconnect, hwork⟩ := Program.bind_eq_ok_iff.mp hwork
    obtain ⟨required, s₂, hrequire, hwork⟩ := Program.bind_eq_ok_iff.mp hwork
    obtain rfl := require_ok hrequire
    obtain ⟨existing, s₃, hask, hwork⟩ := Program.bind_eq_ok_iff.mp hwork
    obtain ⟨errors, s₅, hsteps, hclose⟩ := Program.bind_eq_ok_iff.mp hwork
    rw [hc] at hconnect hask hclose
    cases hconnect
    cases hask
    cases hclose
    exact ⟨admin, s₂, loginFor_eq_ok_iff.mp hlogin, hrequire, Program.gather_eq_nil_iff.mp hsteps⟩
  · rintro ⟨admin, s₁, hlogin, hrequire, hsteps⟩
    have hconnect : c.server.connect (.admin host c.adminDatabase admin) s =
        .ok (.opened (.admin host c.adminDatabase admin))
          { s with connections := s.connections ++ [.admin host c.adminDatabase admin] } := by
      rw [hc]
      rfl
    have hask : c.server.roleMemberships (.opened (.admin host c.adminDatabase admin)) login s₁ =
        .ok (s₁.catalog.rolesOf login).toList s₁ := by
      rw [hc]
      rfl
    have hclose : c.server.close (.opened (.admin host c.adminDatabase admin)) t = .ok () t := by
      rw [hc]
      rfl
    refine Program.bind_eq_ok_iff.mpr ⟨admin, s,
      Program.ofExcept_eq_ok_iff.mpr ⟨loginFor_eq_ok_iff.mpr hlogin, rfl⟩, ?_⟩
    refine Program.bind_eq_ok_iff.mpr ⟨[], t, Program.mapError_eq_ok_iff.mpr ?_, rfl⟩
    rw [Program.bind_of_ok hconnect, Program.bind_of_ok hrequire, Program.bind_of_ok hask,
      Program.bind_of_ok (Program.gather_eq_nil_iff.mpr hsteps), Program.bind_of_ok hclose]
    rfl

/-- What a successful run on a host consists of: the roles that are needed are found out, which
keeps what the creation of a login role keeps, and then all steps succeed. -/
theorem convergeHost_ok (hc : c.server = Cluster.refusing refusal)
    {accesses : List PlannedAccess} (h : c.convergeHost login host accesses s = .ok () t) :
    ∃ admin s₁, c.logins[host]? = some admin ∧
      (∀ (τ : Type) (view : Cluster → τ),
        (∀ connections, view { s with connections } = view s) →
        (∀ session role, Program.Keeps view
          ((Cluster.refusing refusal).run session (.createRole role true none []))) →
        view s₁ = view s) ∧
      Program.sequence (c.steps (.opened (.admin host c.adminDatabase admin)) host admin login
        (.onHost c.staticRoles accesses)
        (.of (s₁.catalog.rolesOf login).toList (.onHost c.staticRoles accesses))) s₁ =
      .ok () t := by
  obtain ⟨admin, s₁, hlogin, hrequire, hsteps⟩ := (convergeHost_eq_ok_iff hc).mp h
  refine ⟨admin, s₁, hlogin, fun τ view hconnections hrole => ?_, hsteps⟩
  have hkeeps : Program.Keeps view
      (c.require (.opened (.admin host c.adminDatabase admin)) login accesses) :=
    keeps_require fun role => by
      rw [hc]
      exact hrole _ role
  exact (hkeeps.of_ok hrequire).trans (hconnections _)

/-- A successful run changes the roles of the login role only.  Of these the managed ones that are
not needed are taken away and those that are needed are given, with the one exception of a role that
no statement can give. -/
theorem rolesOf_convergeHost (hc : c.server = Cluster.refusing refusal)
    {accesses : List PlannedAccess} (h : c.convergeHost login host accesses s = .ok () t)
    (other r : String) :
    r ∈ t.catalog.rolesOf other ↔
      if other = login then
        (r ∈ RequiredRoles.onHost c.staticRoles accesses ∧
          (r ≠ "ON" ∨ r ∈ s.catalog.rolesOf login)) ∨
        (r ∈ s.catalog.rolesOf login ∧ isManagedRole r = false)
      else r ∈ s.catalog.rolesOf other := by
  obtain ⟨admin, s₁, -, hkeeps, hsteps⟩ := convergeHost_ok hc h
  have hkept : s₁.catalog.memberships = s.catalog.memberships :=
    hkeeps _ (·.catalog.memberships) (fun _ => rfl) fun _ role =>
      Cluster.keeps_memberships_of_createRole role true
  have hroles : ∀ name, s₁.catalog.rolesOf name = s.catalog.rolesOf name := fun name => by
    rw [Catalog.rolesOf, hkept, Catalog.rolesOf]
  rw [steps, Program.sequence_append] at hsteps
  obtain ⟨u, s₂, hgive, hrevoke⟩ := Program.bind_eq_ok_iff.mp hsteps
  have hon : isManagedRole "ON" = false := by decide
  rw [revokes_ok hc hrevoke, gives_ok hc hgive, RoleChange.mem_add_iff, RoleChange.mem_remove_iff,
    hroles, hroles]
  by_cases hother : other = login
  · subst hother
    rw [if_pos rfl]
    constructor
    · rintro ⟨hheld | ⟨-, ⟨hneeded, -⟩, hne⟩, hleft⟩
      · cases hm : isManagedRole r with
        | false => exact .inr ⟨hheld, rfl⟩
        | true =>
            by_cases hneeded : r ∈ RequiredRoles.onHost c.staticRoles accesses
            · exact .inl ⟨hneeded, .inr hheld⟩
            · have hne : r ≠ "ON" := fun he => by
                rw [he, hon] at hm
                cases hm
              exact absurd ⟨rfl, ⟨hheld, hm, hneeded⟩, hne⟩ hleft
      · exact .inl ⟨hneeded, .inl hne⟩
    · rintro (⟨hneeded, hpossible⟩ | ⟨hheld, hm⟩)
      · refine ⟨?_, fun hleft => hleft.2.1.2.2 hneeded⟩
        by_cases hheld : r ∈ s.catalog.rolesOf other
        · exact .inl hheld
        · exact .inr ⟨rfl, ⟨hneeded, hheld⟩, hpossible.resolve_right hheld⟩
      · refine ⟨.inl hheld, fun hleft => ?_⟩
        rw [hleft.2.1.2.1] at hm
        cases hm
  · simp [hother]

/-! ## All hosts -/

theorem getD_byHost (access : AccessMap) (host : String) :
    (c.byHost access).getD host [] = access.all.filter fun a => a.host = host := by
  unfold byHost
  rw [NameMap.getD_foldl_push, NameMap.getD_ofPairs_of_default, List.nil_append]
  intro p hp
  obtain ⟨name, -, rfl⟩ := List.mem_map.mp hp
  rfl

/-- A host is seen to with all planned accesses on it. -/
theorem getElem?_byHost {access : AccessMap} {host : String} {accesses : List PlannedAccess}
    (h : (c.byHost access)[host]? = some accesses) :
    accesses = access.all.filter fun a => a.host = host := by
  rw [← getD_byHost (c := c), Std.ExtTreeMap.getD_eq_getD_getElem?, h, Option.getD_some]

/-- The hosts that are seen to are those with a login and those of the plan. -/
theorem mem_byHost_iff {access : AccessMap} {host : String} :
    host ∈ c.byHost access ↔ host ∈ c.logins ∨ ∃ a ∈ access.all, a.host = host := by
  unfold byHost NameMap.push NameMap.ofPairs
  rw [NameMap.mem_foldl_insert, NameMap.mem_foldl_insert]
  refine or_congr ⟨?_, ?_⟩ Iff.rfl
  · rintro (hempty | ⟨p, hp, rfl⟩)
    · simp at hempty
    · obtain ⟨name, hname, rfl⟩ := List.mem_map.mp hp
      exact Std.ExtTreeMap.mem_keys.mp hname
  · intro hhost
    exact .inr ⟨(host, []), List.mem_map.mpr ⟨host, Std.ExtTreeMap.mem_keys.mpr hhost, rfl⟩, rfl⟩

/-- A run on all hosts succeeds when the runs on the hosts do, one after the other. -/
theorem converge_eq_ok_iff {access : AccessMap} :
    c.converge login access s = .ok () t ↔
      Program.sequence ((c.byHost access).toList.map fun h => c.convergeHost login h.1 h.2) s =
        .ok () t := by
  unfold converge
  constructor
  · intro h
    obtain ⟨errors, s₁, hgather, hfail⟩ := Program.bind_eq_ok_iff.mp h
    obtain ⟨hnone, rfl⟩ := Program.failIf_eq_ok_iff.mp hfail
    rw [Error.combine_eq_none_iff] at hnone
    subst hnone
    exact Program.gather_eq_nil_iff.mp hgather
  · exact fun h => (Program.bind_of_ok (Program.gather_eq_nil_iff.mpr h)).trans rfl

/-- A run succeeds only when every planned access is on a host with a login. -/
theorem mem_logins_of_converge_ok (hc : c.server = Cluster.refusing refusal) {access : AccessMap}
    (h : c.converge login access s = .ok () t) {a : PlannedAccess} (ha : a ∈ access.all) :
    a.host ∈ c.logins := by
  have hmem : a.host ∈ c.byHost access := mem_byHost_iff.mpr (.inr ⟨a, ha, rfl⟩)
  obtain ⟨accesses, haccesses⟩ := Option.isSome_iff_exists.mp
    (Std.ExtTreeMap.mem_iff_isSome_getElem?.mp hmem)
  obtain ⟨u, v, hrun⟩ := Program.ok_of_mem_sequence (converge_eq_ok_iff.mp h)
    (List.mem_map.mpr ⟨(a.host, accesses),
      Std.ExtTreeMap.mem_toList_iff_getElem?_eq_some.mpr haccesses, rfl⟩)
  obtain ⟨admin, -, hadmin, -, -⟩ := convergeHost_ok hc hrun
  rw [Std.ExtTreeMap.mem_iff_isSome_getElem?, hadmin]
  rfl

theorem mem_logins_iff_of_single (hsingle : c.logins.keys = [host]) {name : String} :
    name ∈ c.logins ↔ name = host := by
  rw [← Std.ExtTreeMap.mem_keys, hsingle, List.mem_singleton]

/-- With a login on one host only, and all accesses on it, there is one host to see to. -/
theorem toList_byHost_single {access : AccessMap} (hsingle : c.logins.keys = [host])
    (hall : ∀ a ∈ access.all, a.host = host) :
    (c.byHost access).toList = [(host, access.all)] := by
  rw [← List.perm_singleton, List.perm_ext_iff_of_nodup (NameMap.toList_nodup _)
    (List.nodup_cons.mpr ⟨List.not_mem_nil, List.nodup_nil⟩)]
  rintro ⟨name, accesses⟩
  have hmem : name ∈ c.byHost access ↔ name = host := by
    rw [mem_byHost_iff, mem_logins_iff_of_single hsingle]
    constructor
    · rintro (hname | ⟨a, ha, rfl⟩)
      · exact hname
      · exact hall a ha
    · exact .inl
  have hget : ∀ l, (c.byHost access)[host]? = some l → l = access.all := by
    intro l hl
    rw [getElem?_byHost hl]
    exact List.filter_eq_self.mpr fun a ha => decide_eq_true (hall a ha)
  rw [Std.ExtTreeMap.mem_toList_iff_getElem?_eq_some, List.mem_singleton, Prod.mk.injEq]
  constructor
  · intro hsome
    have hname : name = host := hmem.mp (by
      rw [Std.ExtTreeMap.mem_iff_isSome_getElem?, hsome]
      rfl)
    subst hname
    exact ⟨rfl, hget accesses hsome⟩
  · rintro ⟨rfl, rfl⟩
    obtain ⟨l, hl⟩ := Option.isSome_iff_exists.mp
      (Std.ExtTreeMap.mem_iff_isSome_getElem?.mp (hmem.mpr rfl))
    rw [hl, hget l hl]

/-- With a login on one host only, and all accesses on it, a run succeeds when the one on that host
with the whole plan does. -/
theorem converge_single_eq_ok_iff {access : AccessMap} (hsingle : c.logins.keys = [host])
    (hall : ∀ a ∈ access.all, a.host = host) :
    c.converge login access s = .ok () t ↔
      c.convergeHost login host access.all s = .ok () t := by
  rw [converge_eq_ok_iff, toList_byHost_single hsingle hall]
  constructor
  · intro hrun
    obtain ⟨_, s₁, hhost, hend⟩ := Program.bind_eq_ok_iff.mp hrun
    cases hend
    exact hhost
  · exact fun hhost => (Program.bind_of_ok hhost).trans rfl

/-- With a login on one host only, a run succeeds only when all accesses are on this host. -/
theorem host_of_converge_ok (hc : c.server = Cluster.refusing refusal) {access : AccessMap}
    (hsingle : c.logins.keys = [host]) (h : c.converge login access s = .ok () t) :
    ∀ a ∈ access.all, a.host = host := fun _ ha =>
  (mem_logins_iff_of_single hsingle).mp (mem_logins_of_converge_ok hc h ha)

/-- With a login on one host only, a successful run is one on that host with the whole plan. -/
theorem converge_single_ok (hc : c.server = Cluster.refusing refusal) {access : AccessMap}
    (hsingle : c.logins.keys = [host]) (h : c.converge login access s = .ok () t) :
    c.convergeHost login host access.all s = .ok () t :=
  (converge_single_eq_ok_iff hsingle (host_of_converge_ok hc hsingle h)).mp h

end Converger

end PgSteward
