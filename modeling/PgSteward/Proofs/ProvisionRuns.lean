import PgSteward.Postgres.Provision
import PgSteward.Proofs.ClusterRoles
import PgSteward.Proofs.ProvisionSteps

/-!
# Runs of provisioning

What the programs that make a database do to a catalog is a list of steps: a run that succeeds has
taken all of them, and one that fails has stopped in front of one of them (`Follows`).  A run stops
where a statement is refused or where a step is impossible.
-/

namespace PgSteward

namespace Cluster

/-- Whether nothing is refused by the clusters that are told to fail like a cluster. -/
def Refusal.Spares (refusal : Refusal) (s : Cluster) : Prop :=
  ∀ u : Cluster, u.failures = s.failures → ∀ statement, refusal u statement = none

/-- Whether no refusal by the clusters that are told to fail like a cluster says that an object is
there already. -/
def Refusal.Fatal (refusal : Refusal) (s : Cluster) : Prop :=
  ∀ u : Cluster, u.failures = s.failures → ∀ statement code,
    refusal u statement = some code → alreadyThere? code = none

/-- Whether two clusters refuse alike. -/
def SameRules (s t : Cluster) : Prop := t.strict = s.strict ∧ t.failures = s.failures

theorem SameRules.refl (s : Cluster) : SameRules s s := ⟨rfl, rfl⟩

theorem SameRules.trans {s t u : Cluster} (h : SameRules s t) (h' : SameRules t u) :
    SameRules s u := ⟨h'.1.trans h.1, h'.2.trans h.2⟩

/-- A run of a program that fails has taken the first of some steps, and one that succeeds all of
them. -/
structure Follows {α : Type} (refusal : Refusal) (p : Program Cluster SqlError α)
    (steps : List ProvisionStep) (s : Cluster) : Prop where
  /-- A success has taken all steps. -/
  ok : ∀ a t, p s = .ok a t → SameRules s t ∧ ProvisionStep.Passes s.strict s.catalog steps ∧
    t.catalog = ProvisionStep.after s.strict s.catalog steps
  /-- A failure has taken the first ones.  Without a refusal the server is stuck at the next one. -/
  error : ∀ e t, p s = .error e t → SameRules s t ∧ ∃ done rest, steps = done ++ rest ∧
    ProvisionStep.Passes s.strict s.catalog done ∧
    t.catalog = ProvisionStep.after s.strict s.catalog done ∧
    (refusal.Spares s → ∃ step more, rest = step :: more ∧ step.Stuck s.strict t.catalog e)

variable {α β : Type} {refusal : Refusal} {session : Session} {st : Statement} {s : Cluster}
  {steps others : List ProvisionStep}

/-- A program that succeeds takes all steps. -/
theorem Follows.of_ok {p : Program Cluster SqlError α} {a : α} {t : Cluster}
    (hrun : p s = .ok a t) (hrules : SameRules s t)
    (hpasses : ProvisionStep.Passes s.strict s.catalog steps)
    (hcatalog : t.catalog = ProvisionStep.after s.strict s.catalog steps) :
    Follows refusal p steps s := by
  constructor
  · intro b u h
    cases hrun.symm.trans h
    exact ⟨hrules, hpasses, hcatalog⟩
  · intro e u h
    cases hrun.symm.trans h

/-- A program that fails at once takes no step. -/
theorem Follows.of_error {p : Program Cluster SqlError α} {e : SqlError} {t : Cluster}
    (hrun : p s = .error e t) (hrules : SameRules s t) (hcatalog : t.catalog = s.catalog)
    (hstuck : refusal.Spares s →
      ∃ step more, steps = step :: more ∧ step.Stuck s.strict s.catalog e) :
    Follows refusal p steps s := by
  constructor
  · intro a u h
    cases hrun.symm.trans h
  · intro e' u h
    cases hrun.symm.trans h
    refine ⟨hrules, [], steps, rfl, trivial, hcatalog, ?_⟩
    rwa [hcatalog]

/-! ## Sequencing -/

theorem follows_pure (a : α) : Follows refusal (pure a) [] s :=
  Follows.of_ok (t := s) rfl (.refl s) trivial rfl

/-- A composed program takes the steps of both parts. -/
theorem Follows.bind {p : Program Cluster SqlError α} {f : α → Program Cluster SqlError β}
    (hp : Follows refusal p steps s)
    (hf : ∀ a t, p s = .ok a t → SameRules s t → Follows refusal (f a) others t) :
    Follows refusal (p >>= f) (steps ++ others) s := by
  constructor
  · intro b u hrun
    obtain ⟨a, t, hfirst, hsecond⟩ := Program.bind_eq_ok_iff.mp hrun
    obtain ⟨hrules, hpasses, hcatalog⟩ := hp.ok a t hfirst
    obtain ⟨hrules', hpasses', hcatalog'⟩ := (hf a t hfirst hrules).ok b u hsecond
    rw [hrules.1, hcatalog] at hpasses' hcatalog'
    exact ⟨hrules.trans hrules', ProvisionStep.passes_append_iff.mpr ⟨hpasses, hpasses'⟩,
      by rw [hcatalog', ProvisionStep.after_append]⟩
  · intro e u hrun
    rcases Program.bind_eq_error_iff.mp hrun with hfirst | ⟨a, t, hfirst, hsecond⟩
    · obtain ⟨hrules, done, rest, rfl, hpasses, hcatalog, hstuck⟩ := hp.error e u hfirst
      refine ⟨hrules, done, rest ++ others, List.append_assoc .., hpasses, hcatalog,
        fun hspare => ?_⟩
      obtain ⟨step, more, rfl, hstep⟩ := hstuck hspare
      exact ⟨step, more ++ others, rfl, hstep⟩
    · obtain ⟨hrules, hpasses, hcatalog⟩ := hp.ok a t hfirst
      obtain ⟨hrules', done, rest, rfl, hpasses', hcatalog', hstuck⟩ :=
        (hf a t hfirst hrules).error e u hsecond
      rw [hrules.1, hcatalog] at hpasses' hcatalog'
      refine ⟨hrules.trans hrules', steps ++ done, rest, (List.append_assoc ..).symm,
        ProvisionStep.passes_append_iff.mpr ⟨hpasses, hpasses'⟩,
        by rw [hcatalog', ProvisionStep.after_append], fun hspare => ?_⟩
      rw [← hrules.1]
      exact hstuck fun v hv => hspare v (hv.trans hrules.2)

theorem Refusal.Fatal.congr {t : Cluster} (h : refusal.Fatal s) (hrules : SameRules s t) :
    refusal.Fatal t := fun u hu => h u (hu.trans hrules.2)

theorem Refusal.Spares.fatal (h : refusal.Spares s) : refusal.Fatal s := by
  intro u hu statement code hcode
  rw [h u hu] at hcode
  cases hcode

theorem Refusal.Spares.congr {t : Cluster} (h : refusal.Spares s) (hrules : SameRules s t) :
    refusal.Spares t := fun u hu => h u (hu.trans hrules.2)

/-- A composed program takes the steps of both parts, or fewer if the second part takes fewer. -/
theorem Follows.bind_or {p q : Program Cluster SqlError Unit} {fewer : List ProvisionStep}
    (hp : Follows refusal p steps s)
    (hq : ∀ t, Follows refusal q others t ∨ (Follows refusal q fewer t ∧ ¬refusal.Spares t)) :
    Follows refusal (p >>= fun _ => q) (steps ++ others) s ∨
      (Follows refusal (p >>= fun _ => q) (steps ++ fewer) s ∧ ¬refusal.Spares s) := by
  cases hrun : p s with
  | ok u t =>
      rcases hq t with hmore | ⟨hless, hunspared⟩
      · refine .inl (Follows.bind hp fun _ t' ht' _ => ?_)
        cases hrun.symm.trans ht'
        exact hmore
      · refine .inr ⟨Follows.bind hp fun _ t' ht' _ => ?_, fun hspare => ?_⟩
        · cases hrun.symm.trans ht'
          exact hless
        · exact hunspared (hspare.congr (hp.ok u t hrun).1)
  | error e t =>
      refine .inl (Follows.bind hp fun _ t' ht' _ => ?_)
      cases hrun.symm.trans ht'

/-- Work on an identifier goes on with the identifier. -/
theorem Follows.bind_identifier {f : Identifier → Program Cluster SqlError α} {i : Identifier}
    (h : Follows refusal (f i) steps s) :
    Follows refusal (Program.ofExcept (Identifier.of i.name) >>= f) steps s := by
  rw [Identifier.of_eq_ok_iff.mpr rfl]
  exact h

/-! ## Statements -/

/-- A statement that a catalog does as a step takes this step. -/
theorem follows_run {step : ProvisionStep}
    (h : (step.Possible s.strict s.catalog ∧
        effectOf session st s s.catalog = .ok () (step.effect s.strict s.catalog)) ∨
      ∃ e, step.Stuck s.strict s.catalog e ∧
        effectOf session st s s.catalog = .error e s.catalog) :
    Follows refusal ((refusing refusal).run session st) [step] s := by
  cases hrun : (refusing refusal).run session st s with
  | ok u t =>
      obtain ⟨-, c, hc, rfl⟩ := run_eq_ok_iff.mp hrun
      rcases h with ⟨hpossible, heffect⟩ | ⟨e, -, heffect⟩
      · cases heffect.symm.trans hc
        exact Follows.of_ok hrun ⟨rfl, rfl⟩ ⟨hpossible, trivial⟩ rfl
      · cases heffect.symm.trans hc
  | error e t =>
      rcases run_eq_error_iff.mp hrun with ⟨code, hcode, -, rfl⟩ | ⟨-, c, hc, rfl⟩
      · refine Follows.of_error hrun ⟨rfl, rfl⟩ rfl fun hspare => ?_
        rw [hspare s rfl] at hcode
        cases hcode
      · rcases h with ⟨-, heffect⟩ | ⟨e', hstuck, heffect⟩
        · cases heffect.symm.trans hc
        · cases heffect.symm.trans hc
          exact Follows.of_error hrun ⟨rfl, rfl⟩ rfl fun _ => ⟨step, [], rfl, hstuck⟩

/-- A statement about passwords or privileges takes no step. -/
theorem follows_quiet (h : st.IsQuiet) :
    Follows refusal ((refusing refusal).run session st) [] s := by
  have heffect : effectOf session st s s.catalog = .ok () s.catalog := by
    rw [effectOf, Statement.read_quiet h]
    rfl
  cases hrun : (refusing refusal).run session st s with
  | ok u t =>
      obtain ⟨-, c, hc, rfl⟩ := run_eq_ok_iff.mp hrun
      rw [heffect] at hc
      cases hc
      exact Follows.of_ok hrun ⟨rfl, rfl⟩ trivial rfl
  | error e t =>
      rcases run_eq_error_iff.mp hrun with ⟨code, hcode, -, rfl⟩ | ⟨-, c, hc, rfl⟩
      · refine Follows.of_error hrun ⟨rfl, rfl⟩ rfl fun hspare => ?_
        rw [hspare s rfl] at hcode
        cases hcode
      · rw [heffect] at hc
        cases hc

/-- A statement that creates what may be there already takes its step in either case. -/
theorem follows_create (hfatal : refusal.Fatal s) {step : ProvisionStep}
    (hpossible : step.Possible s.strict s.catalog)
    (h : effectOf session st s s.catalog = .ok () (step.effect s.strict s.catalog) ∨
      ∃ code message, (alreadyThere? code).isSome ∧ step.effect s.strict s.catalog = s.catalog ∧
        effectOf session st s s.catalog = .error (.database code message) s.catalog) :
    Follows refusal ((refusing refusal).create session st) [step] s := by
  cases hrun : (refusing refusal).run session st s with
  | ok u t =>
      obtain ⟨-, c, hc, rfl⟩ := run_eq_ok_iff.mp hrun
      rcases h with heffect | ⟨code, message, -, -, heffect⟩
      · rw [heffect] at hc
        cases hc
        exact Follows.of_ok (create_of_ok hrun) ⟨rfl, rfl⟩ ⟨hpossible, trivial⟩ rfl
      · rw [heffect] at hc
        cases hc
  | error e t =>
      have hcreate := create_of_error hrun
      rcases run_eq_error_iff.mp hrun with ⟨code, hcode, rfl, rfl⟩ | ⟨-, c, hc, rfl⟩
      · -- A refusal never looks like an object that is there.
        have hnot : (refused code st.text).isAlreadyThere = false := by
          show (alreadyThere? code).isSome = false
          rw [hfatal s rfl _ code hcode]
          rfl
        rw [hnot] at hcreate
        refine Follows.of_error hcreate ⟨rfl, rfl⟩ rfl fun hspare => ?_
        rw [hspare s rfl] at hcode
        cases hcode
      · rcases h with heffect | ⟨code, message, hcode, hsame, heffect⟩
        · rw [heffect] at hc
          cases hc
        · rw [heffect] at hc
          cases hc
          rw [if_pos (show (SqlError.database code message).isAlreadyThere = true from hcode)]
            at hcreate
          exact Follows.of_ok hcreate ⟨rfl, rfl⟩ ⟨hpossible, trivial⟩ hsame.symm

/-! ## Operations -/

variable {r m d o : Identifier}

theorem follows_createRole (hfatal : refusal.Fatal s) (role : Identifier) (login : Bool)
    (password : Option String) (roles : List Identifier) :
    Follows refusal ((refusing refusal).create session (.createRole role login password roles))
      [.role role.name
        (Command.newRoles (Statement.createRole role login password roles).text.toList)] s := by
  refine follows_create hfatal trivial ?_
  rw [effectOf, Statement.read_createRole, Catalog.run_createRole]
  show _ = EStateM.Result.ok () (s.catalog.withRole _ _) ∨ _
  rw [Catalog.withRole]
  by_cases h : role.name ∈ s.catalog.roles
  · rw [if_pos h]
    exact .inr ⟨"42710", _, rfl, if_pos h, rfl⟩
  · rw [if_neg h, if_neg h]
    exact .inl rfl

theorem follows_ensureDatabase (hfatal : refusal.Fatal s) (d : Identifier) :
    Follows refusal ((refusing refusal).ensureDatabase session d.name)
      [.database d.name session.user] s := by
  refine Follows.bind_identifier ?_
  show Follows refusal _ ([.database d.name session.user] ++ []) s
  refine Follows.bind (follows_create hfatal
    (show ProvisionStep.Possible _ _ (.database d.name session.user) from trivial) ?_)
    fun _ _ _ _ => follows_pure ()
  rw [effectOf, Statement.read_createDatabase, Catalog.run_createDatabase]
  show _ = EStateM.Result.ok () (s.catalog.withDatabase _ _) ∨ _
  rw [Catalog.withDatabase]
  by_cases h : d.name ∈ s.catalog.databases
  · rw [if_pos h]
    exact .inr ⟨"42P04", _, rfl, if_pos h, rfl⟩
  · rw [if_neg h, if_neg h]
    exact .inl rfl

theorem follows_ensureSchema (hfatal : refusal.Fatal s) (n : Identifier) :
    Follows refusal ((refusing refusal).ensureSchema session n.name)
      [.schema session.database n.name session.user] s := by
  refine Follows.bind_identifier ?_
  show Follows refusal _ ([.schema session.database n.name session.user] ++ []) s
  refine Follows.bind
    (follows_create hfatal (show ProvisionStep.Possible _ _
      (.schema session.database n.name session.user) from trivial) ?_)
    fun _ _ _ _ => follows_pure ()
  rw [effectOf, Statement.read_createSchema, Catalog.run_createSchema]
  show _ = EStateM.Result.ok () (s.catalog.withSchema _ _ _) ∨ _
  rw [Catalog.withSchema]
  by_cases h : (s.catalog.schemaOwner? session.database n.name).isSome
  · rw [if_pos h]
    exact .inr ⟨"42P06", _, rfl, if_pos h, rfl⟩
  · rw [if_neg h, if_neg h]
    exact .inl rfl

theorem follows_alterDatabaseOwner (d o : Identifier) :
    Follows refusal ((refusing refusal).alterDatabaseOwner session d.name o.name)
      [.owner d.name o.name] s := by
  refine Follows.bind_identifier (Follows.bind_identifier (follows_run (.inl ⟨trivial, ?_⟩)))
  rw [effectOf, Statement.read_alterDatabaseOwner]
  rfl

theorem effectOf_grantRoles :
    effectOf session (.grantRoles [r] m) s s.catalog =
      if r.name = "ON" ∨ ¬s.catalog.GoesInCircle s.strict m.name r.name then
        .ok () (s.catalog.join s.strict r.name m.name)
      else .error (Catalog.circular m.name r.name) s.catalog := by
  rw [effectOf, Statement.read_grantRoles, Catalog.join]
  by_cases hon : r.name = "ON"
  · rw [if_pos hon, if_pos (.inl hon), if_pos (.inl hon)]
    rfl
  · rw [if_neg hon]
    show Catalog.grant s.strict m.name [r.name] s.catalog = _
    rw [Catalog.grant_one]
    by_cases hcircle : s.catalog.GoesInCircle s.strict m.name r.name
    · simp [hon, hcircle]
    · simp [hon, hcircle]

theorem follows_grantRoles :
    Follows refusal ((refusing refusal).run session (.grantRoles [r] m))
      [.member r.name m.name] s := by
  refine follows_run ?_
  rw [effectOf_grantRoles]
  by_cases hpossible : r.name = "ON" ∨ ¬s.catalog.GoesInCircle s.strict m.name r.name
  · rw [if_pos hpossible]
    exact .inl ⟨⟨r.isName, hpossible⟩, rfl⟩
  · rw [if_neg hpossible]
    obtain ⟨hon, hcircle⟩ := not_or.mp hpossible
    exact .inr ⟨_, .circle r.isName hon (Classical.not_not.mp hcircle), rfl⟩

/-- The manager joins a role, unless the server refuses it as a circle.  A refusal with the same
code goes unnoticed, and then no step is taken. -/
theorem follows_joinManager {p : Provisioner Cluster} (hp : p.server = refusing refusal)
    {target : DatabaseTarget} (hr : r.name = target.user) (hm : m.name = p.managerRole) :
    Follows refusal (p.joinManager session target) [.tryMember r.name m.name] s ∨
      (Follows refusal (p.joinManager session target) [] s ∧ ¬refusal.Spares s) := by
  have hgrant : p.server.grantRole session target.user p.managerRole =
      (refusing refusal).run session (.grantRoles [r] m) := by
    rw [← hr, ← hm, Server.grantRole, Identifier.of_eq_ok_iff.mpr rfl,
      Identifier.of_eq_ok_iff.mpr rfl, hp]
    rfl
  cases hrun : (refusing refusal).run session (.grantRoles [r] m) s with
  | ok u t =>
      have hjoin : p.joinManager session target s = .ok () t := by
        rw [Provisioner.joinManager, hgrant, Program.bind_of_ok (Program.attempt_of_ok hrun)]
        rfl
      obtain ⟨hrules, -, hcatalog⟩ := follows_grantRoles.ok () t hrun
      exact .inl (Follows.of_ok hjoin hrules ⟨trivial, trivial⟩ hcatalog)
  | error e t =>
      have hjoin : p.joinManager session target s =
          if e.code? = some Provisioner.invalidGrant then .ok () t else .error e t := by
        rw [Provisioner.joinManager, hgrant, Program.bind_of_ok (Program.attempt_of_error hrun)]
        dsimp only
        split
        next => rfl
        next => rfl
      rcases run_eq_error_iff.mp hrun with ⟨code, hcode, rfl, rfl⟩ | ⟨-, c, hc, rfl⟩
      · have hunspared : ¬refusal.Spares s := fun hspare => by
          rw [hspare s rfl] at hcode
          cases hcode
        by_cases hinvalid : (refused code (Statement.grantRoles [r] m).text).code? =
            some Provisioner.invalidGrant
        · rw [if_pos hinvalid] at hjoin
          exact .inr ⟨Follows.of_ok hjoin ⟨rfl, rfl⟩ trivial rfl, hunspared⟩
        · rw [if_neg hinvalid] at hjoin
          exact .inl (Follows.of_error hjoin ⟨rfl, rfl⟩ rfl fun hspare =>
            absurd hspare hunspared)
      · rw [effectOf_grantRoles] at hc
        split at hc
        next => cases hc
        next hcircle =>
          cases hc
          have hinvalid : (Catalog.circular m.name r.name).code? = some Provisioner.invalidGrant :=
            rfl
          rw [if_pos hinvalid] at hjoin
          have hsame : s.catalog.join s.strict r.name m.name = s.catalog :=
            Catalog.join_eq_self_iff.mpr (.inr (.inl (Classical.not_not.mp (not_or.mp hcircle).2)))
          exact .inl (Follows.of_ok hjoin ⟨rfl, rfl⟩ ⟨trivial, trivial⟩ hsame.symm)

/-! ## Roles -/

theorem ofAll_map_name (is : List Identifier) : Identifier.ofAll (is.map (·.name)) = .ok is := by
  induction is with
  | nil => rfl
  | cons i rest ih =>
      rw [List.map_cons, Identifier.ofAll, Identifier.of_eq_ok_iff.mpr rfl, ih]
      rfl

/-- The steps to a role with a password that is to be a member of others. -/
def loginSteps (r : Identifier) (password : String) (groups : List Identifier) :
    List ProvisionStep :=
  .role r.name (Command.newRoles
    (Statement.createRole r true (some password) groups).text.toList) ::
      groups.map fun g => .member g.name r.name

theorem follows_ensureManager (hfatal : refusal.Fatal s) (m : Identifier) :
    Follows refusal ((refusing refusal).ensureRole session m.name true [] none)
      [.role m.name []] s := by
  rw [Server.ensureRole_plain]
  refine Follows.bind_identifier ?_
  rw [← Statement.newRoles_createRole m true]
  exact Follows.bind (follows_createRole hfatal m true none []) fun _ _ _ _ => follows_pure ()

theorem follows_ensureLogin (hfatal : refusal.Fatal s) (r : Identifier) (password : String)
    {groups : List Identifier} (hgroups : groups = [] ∨ ∃ g, groups = [g]) :
    Follows refusal ((refusing refusal).ensureRole session r.name true (groups.map (·.name))
      (some password)) (loginSteps r password groups) s := by
  refine Follows.bind_identifier ?_
  rw [ofAll_map_name]
  refine Follows.bind (follows_createRole hfatal r true (some password) groups)
    fun isNew t _ _ => ?_
  have hgrant : ∀ u, Follows refusal (if (!groups.isEmpty) = true then
      (refusing refusal).run session (.grantRoles groups r) else pure ())
      (groups.map fun g => .member g.name r.name) u := fun u => by
    rcases hgroups with rfl | ⟨g, rfl⟩
    · exact follows_pure ()
    · exact follows_grantRoles
  cases isNew with
  | true => exact hgrant t
  | false =>
      have hquiet : Statement.IsQuiet (.setPassword r password) := trivial
      exact Follows.bind (follows_quiet hquiet) fun _ u _ _ => hgrant u

/-! ## The database -/

/-- The role that owned a database before it is shared, unless it is the login role or the manager
role.  A new database is owned by the administrator at first. -/
def previousOwner? (c : Catalog) (admin : String) (manager : String) (target : DatabaseTarget) :
    Option String :=
  if target.shared then
    (some (c.databases.getD target.name admin)).filter fun owner =>
      owner ≠ target.user ∧ owner ≠ manager
  else none

variable {p : Provisioner Cluster} {target : DatabaseTarget} {host : String} {admin : AdminLogin}

theorem follows_grantRole (name : String) (m : Identifier) :
    Follows refusal ((refusing refusal).grantRole session name m.name) [.member name m.name] s := by
  cases hname : Identifier.of name with
  | ok i =>
      obtain rfl := Identifier.of_eq_ok_iff.mp hname
      exact Follows.bind_identifier (Follows.bind_identifier follows_grantRoles)
  | error e =>
      obtain ⟨hbad, rfl⟩ := Identifier.of_eq_error_iff.mp hname
      have hrun : (refusing refusal).grantRole session name m.name s =
          .error (.unsafeName name) s := by
        rw [Server.grantRole, hname]
        rfl
      exact Follows.of_error hrun (.refl s) rfl fun _ => ⟨_, [], rfl, .unsafeName hbad⟩

theorem follows_grantOwner (hp : p.server = refusing refusal) (hr : r.name = target.user)
    (owner : Option String) :
    Follows refusal
      (match owner with
        | some owner => p.server.grantRole session owner target.user
        | none => pure ())
      (owner.map fun owner => ProvisionStep.member owner r.name).toList s := by
  rw [hp, ← hr]
  cases owner with
  | none => exact follows_pure ()
  | some owner => exact follows_grantRole owner r

/-- The steps of a shared database to its owner. -/
theorem follows_shareDatabase (hp : p.server = refusing refusal) (hr : r.name = target.user)
    (hm : m.name = p.managerRole) (hd : d.name = target.name) (hshared : target.shared = true)
    (hthere : d.name ∈ s.catalog.databases) :
    Follows refusal (p.shareDatabase session target)
      (.owner d.name m.name ::
        ((previousOwner? s.catalog session.user m.name target).map fun owner =>
          ProvisionStep.member owner r.name).toList) s := by
  have howner : p.server.databaseOwner session target.name s =
      .ok s.catalog.databases[target.name]? s := by
    rw [hp, Server.databaseOwner]
    show EStateM.Result.ok (s.catalog.databases[target.name]?.toList.head?) s = _
    rw [Option.head?_toList]
  have hask : Follows refusal (p.server.databaseOwner session target.name) [] s :=
    Follows.of_ok howner (.refl s) trivial rfl
  refine Follows.bind hask fun previous t hprevious _ => ?_
  rw [howner] at hprevious
  cases hprevious
  have hprevious : s.catalog.databases[target.name]? =
      some (s.catalog.databases.getD target.name session.user) := by
    rw [← hd, Std.ExtTreeMap.getD_eq_getD_getElem?]
    obtain ⟨owner, ho⟩ := Option.isSome_iff_exists.mp
      (Std.ExtTreeMap.mem_iff_isSome_getElem?.mp hthere)
    rw [ho]
    rfl
  have howners : previousOwner? s.catalog session.user m.name target =
      previousOwner? s.catalog session.user p.managerRole target := by rw [hm]
  rw [howners, previousOwner?, if_pos hshared, ← hprevious]
  have halter : Follows refusal
      (p.server.alterDatabaseOwner session target.name p.managerRole) [.owner d.name m.name] s := by
    rw [hp, ← hd, ← hm]
    exact follows_alterDatabaseOwner d m
  exact Follows.bind halter fun _ u _ _ => follows_grantOwner hp hr _

/-- The steps to the roles of a database, up to the membership of the login role in the manager
role. -/
def roleSteps (m r : Identifier) (password : String) : List ProvisionStep :=
  .role m.name [] :: loginSteps r password (if r.name = m.name then [] else [m])

/-- The steps to the membership of the manager role in the login role. -/
def joinSteps (m r : Identifier) : List ProvisionStep :=
  if r.name = m.name then [] else [.tryMember r.name m.name]

/-- The roles are made, and the manager role joins the login role, or its refusal goes
unnoticed. -/
theorem follows_provideRoles (hfatal : refusal.Fatal s) (hp : p.server = refusing refusal)
    (hr : r.name = target.user) (hm : m.name = p.managerRole) :
    Follows refusal (p.provideRoles session target)
      (roleSteps m r target.password ++ joinSteps m r) s ∨
    (Follows refusal (p.provideRoles session target) (roleSteps m r target.password) s ∧
      ¬refusal.Spares s) := by
  have hgroups : (if target.user = p.managerRole then [] else [p.managerRole]) =
      (if r.name = m.name then [] else [m]).map (·.name) := by
    rw [← hr, ← hm]
    split <;> rfl
  have hroles : Follows refusal (p.server.ensureRole session p.managerRole true [] none >>= fun _ =>
      p.server.ensureRole session target.user true
        (if target.user = p.managerRole then [] else [p.managerRole]) (some target.password))
      (roleSteps m r target.password) s := by
    rw [hgroups, hp, ← hr, ← hm]
    refine Follows.bind (follows_ensureManager hfatal m) fun _ t _ hrules => ?_
    refine follows_ensureLogin (hfatal.congr hrules) r target.password ?_
    split
    · exact .inl rfl
    · exact .inr ⟨m, rfl⟩
  have hprogram : p.provideRoles session target =
      (p.server.ensureRole session p.managerRole true [] none >>= fun _ =>
        p.server.ensureRole session target.user true
          (if target.user = p.managerRole then [] else [p.managerRole]) (some target.password)) >>=
      fun _ => if (!decide (target.user = p.managerRole)) = true then p.joinManager session target
        else pure () := by
    rw [bind_assoc]
    rfl
  have hjoin : ∀ t, Follows refusal (if (!decide (target.user = p.managerRole)) = true then
      p.joinManager session target else pure ()) (joinSteps m r) t ∨
      (Follows refusal (if (!decide (target.user = p.managerRole)) = true then
        p.joinManager session target else pure ()) [] t ∧ ¬refusal.Spares t) := fun t => by
    by_cases hself : target.user = p.managerRole
    · rw [if_neg (by simp [hself]), joinSteps, if_pos (by rw [hr, hm, hself])]
      exact .inl (follows_pure ())
    · rw [if_pos (by simp [hself]), joinSteps, if_neg fun h => hself (by rw [← hr, ← hm, h])]
      exact follows_joinManager hp hr hm
  have h := Follows.bind_or hroles hjoin
  rwa [← hprogram, List.append_nil] at h

/-- The steps of a database to its owner. -/
def ownerSteps (c : Catalog) (admin : String) (target : DatabaseTarget) (m r d : Identifier) :
    List ProvisionStep :=
  .database d.name admin :: .owner d.name (if target.shared then m.name else r.name) ::
    ((previousOwner? c admin m.name target).map fun owner =>
      ProvisionStep.member owner r.name).toList

theorem isOfRoles_of_mem_roleSteps {m r : Identifier} {password : String} {step : ProvisionStep}
    (h : step ∈ roleSteps m r password) : step.IsOfRoles := by
  unfold roleSteps loginSteps at h
  rcases List.mem_cons.mp h with rfl | h
  · trivial
  · rcases List.mem_cons.mp h with rfl | h
    · trivial
    · obtain ⟨g, -, rfl⟩ := List.mem_map.mp h
      trivial

theorem isOfRoles_of_mem_joinSteps {m r : Identifier} {step : ProvisionStep}
    (h : step ∈ joinSteps m r) : step.IsOfRoles := by
  unfold joinSteps at h
  split at h
  next => cases h
  next =>
    rw [List.mem_singleton] at h
    rw [h]
    trivial

/-- A database is made and gets its owner after the roles. -/
theorem follows_provideOwner (hfatal : refusal.Fatal s) (hp : p.server = refusing refusal)
    (hr : r.name = target.user) (hm : m.name = p.managerRole) (hd : d.name = target.name)
    (hroles : Follows refusal (p.provideRoles session target) steps s)
    (hsteps : ∀ step ∈ steps, step.IsOfRoles) :
    Follows refusal (p.provideOwner session target)
      (steps ++ ownerSteps s.catalog session.user target m r d) s := by
  refine Follows.bind hroles fun _ t ht hrules => ?_
  have hdatabase : Follows refusal (p.server.ensureDatabase session target.name)
      [.database d.name session.user] t := by
    rw [hp, ← hd]
    exact follows_ensureDatabase (hfatal.congr hrules) d
  refine Follows.bind hdatabase fun _ u hu _ => ?_
  -- The owner that the database has by now is the one that it had, or got at first.
  have howner : u.catalog.databases.getD target.name session.user =
      s.catalog.databases.getD target.name session.user := by
    obtain ⟨hrules, -, hafter⟩ := hroles.ok _ t ht
    obtain ⟨-, -, hafter'⟩ := hdatabase.ok _ u hu
    rw [hafter', hafter, hrules.1, ← ProvisionStep.after_append, hd]
    refine ProvisionStep.getD_databases_after fun step hstep => ?_
    rcases List.mem_append.mp hstep with hstep | hstep
    · exact .inl (hsteps step hstep)
    · exact .inr (List.mem_singleton.mp hstep)
  have hprevious : previousOwner? u.catalog session.user m.name target =
      previousOwner? s.catalog session.user m.name target := by
    rw [previousOwner?, howner, previousOwner?]
  rw [← hprevious]
  cases hshared : target.shared with
  | false =>
      rw [previousOwner?, hshared, if_neg Bool.false_ne_true, if_neg Bool.false_ne_true, hp, ← hd,
        ← hr]
      exact follows_alterDatabaseOwner d r
  | true =>
      have hthere : d.name ∈ u.catalog.databases := by
        obtain ⟨-, hpasses, hafter⟩ := hdatabase.ok _ u hu
        rw [hafter]
        exact ProvisionStep.done_after (List.pairwise_singleton ..) hpasses _
          (List.mem_singleton.mpr rfl)
      rw [if_pos rfl, if_pos rfl]
      exact follows_shareDatabase hp hr hm hd hshared hthere

/-- Statements about passwords and privileges take no step. -/
theorem follows_runAll {statements : List Statement} (h : ∀ st ∈ statements, st.IsQuiet) :
    Follows refusal ((refusing refusal).runAll session statements) [] s := by
  induction statements generalizing s with
  | nil => exact follows_pure ()
  | cons st rest ih =>
      exact Follows.bind (follows_quiet (h st (List.mem_cons_self ..))) fun _ t _ _ =>
        ih fun other hother => h other (List.mem_cons_of_mem _ hother)

theorem follows_provideSchema (hfatal : refusal.Fatal s) (hp : p.server = refusing refusal)
    (hd : d.name = target.name) (hdatabase : session.database = d.name)
    (huser : session.user = r.name) :
    Follows refusal (p.provideSchema session target) [.schema d.name d.name r.name] s := by
  have hstep : ProvisionStep.schema d.name d.name r.name =
      .schema session.database d.name session.user := by rw [hdatabase, huser]
  unfold Provisioner.provideSchema
  rw [hp, ← hd, hstep]
  refine Follows.bind (follows_ensureSchema hfatal d) fun _ t _ _ => ?_
  refine Follows.bind_identifier (follows_runAll fun st hst => ?_)
  simp only [List.mem_cons, List.not_mem_nil, or_false] at hst
  rcases hst with rfl | rfl | rfl <;> trivial

/-- Work in a session takes its steps after the session has been opened. -/
theorem follows_withSession (hp : p.server = refusing refusal) {connection : ConnectionTarget}
    {work : Session → Program Cluster SqlError Unit}
    (h : Follows refusal (work (Session.opened connection)) steps
      { s with connections := s.connections ++ [connection] }) :
    Follows refusal (p.withSession connection work) steps s := by
  unfold Provisioner.withSession
  rw [hp]
  have hconnect : Follows refusal ((refusing refusal).connect connection) [] s :=
    Follows.of_ok (t := { s with connections := s.connections ++ [connection] }) rfl ⟨rfl, rfl⟩
      trivial rfl
  refine Follows.bind hconnect fun session t ht _ => ?_
  cases ht
  rw [← List.append_nil steps]
  exact Follows.bind h fun _ u _ _ => follows_pure ()

theorem follows_createExtension (n e : Identifier) :
    Follows refusal ((refusing refusal).createExtension session n e.name)
      [.extension e.name] s := by
  refine Follows.bind_identifier (follows_run (.inl ⟨trivial, ?_⟩))
  rw [effectOf, Statement.read_createExtension]
  rfl

/-- A step that has been done is taken by the way. -/
theorem Follows.skip {p : Program Cluster SqlError α} {step : ProvisionStep}
    (hdone : step.Done s.strict s.catalog) (h : Follows refusal p steps s) :
    Follows refusal p (step :: steps) s := by
  obtain ⟨hpossible, hsame⟩ := ProvisionStep.effect_of_done hdone
  have hpasses : ∀ others, ProvisionStep.Passes s.strict s.catalog others →
      ProvisionStep.Passes s.strict s.catalog (step :: others) := fun others hothers =>
    ⟨hpossible, by rwa [hsame]⟩
  have hafter : ∀ others, ProvisionStep.after s.strict s.catalog (step :: others) =
      ProvisionStep.after s.strict s.catalog others := fun others => by
    show ProvisionStep.after s.strict (step.effect s.strict s.catalog) others = _
    rw [hsame]
  constructor
  · intro a t ht
    obtain ⟨hrules, hok, hcatalog⟩ := h.ok a t ht
    exact ⟨hrules, hpasses _ hok, by rw [hafter, hcatalog]⟩
  · intro e t ht
    obtain ⟨hrules, done, rest, rfl, hok, hcatalog, hstuck⟩ := h.error e t ht
    exact ⟨hrules, step :: done, rest, rfl, hpasses _ hok, by rw [hafter, hcatalog], hstuck⟩

/-- The extensions that are not there are installed, the others are left. -/
theorem follows_createExtensions (n : Identifier) {installed : List String} {es : List Identifier}
    (h : ∀ name ∈ installed, name ∈ s.catalog.extensions) :
    Follows refusal (Program.sequence
      (((es.map (·.name)).filter fun e => !installed.contains e).map
        ((refusing refusal).createExtension session n)))
      (es.map fun e => .extension e.name) s := by
  induction es generalizing s with
  | nil => exact follows_pure ()
  | cons e rest ih =>
      rw [List.map_cons, List.map_cons]
      by_cases he : e.name ∈ installed
      · rw [List.filter_cons_of_neg (by simpa using he)]
        exact Follows.skip (h e.name he) (ih h)
      · rw [List.filter_cons_of_pos (by simpa using he)]
        refine Follows.bind (follows_createExtension n e) fun u t ht _ => ih fun name hname => ?_
        obtain ⟨-, -, hcatalog⟩ := (follows_createExtension n e).ok u t ht
        rw [hcatalog]
        exact (Catalog.grows_withExtension e.name).extensions name (h name hname)

theorem follows_ensureExtensions (n : Identifier) (es : List Identifier) :
    Follows refusal ((refusing refusal).ensureExtensions session n.name (es.map (·.name)))
      (es.map fun e => .extension e.name) s := by
  unfold Server.ensureExtensions
  cases es with
  | nil => exact follows_pure ()
  | cons e rest =>
      refine Follows.bind_identifier ?_
      have hask : Follows refusal ((refusing refusal).ask session .extensions) [] s :=
        Follows.of_ok (t := s) rfl (.refl s) trivial rfl
      refine Follows.bind hask fun installed t ht _ => ?_
      cases ht
      exact follows_createExtensions n fun name hname => Std.ExtTreeSet.mem_toList.mp hname

/-- The steps to the schema and the extensions of a database. -/
def schemaSteps (r d : Identifier) (es : List Identifier) : List ProvisionStep :=
  .schema d.name d.name r.name :: es.map fun e => .extension e.name

theorem checkNames_map_name (hr : r.name = target.user) (hm : m.name = p.managerRole)
    (hd : d.name = target.name) (es : List Identifier) :
    p.checkNames target (es.map (·.name)) = .ok () := by
  unfold Provisioner.checkNames
  rw [← hr, ← hm, ← hd, ofAll_map_name, Identifier.of_eq_ok_iff.mpr rfl,
    Identifier.of_eq_ok_iff.mpr rfl, Identifier.of_eq_ok_iff.mpr rfl]
  rfl

/-- The making of a database on a host takes its steps, all of them or all but the membership of the
manager role. -/
theorem follows_provide (hfatal : refusal.Fatal s) (hp : p.server = refusing refusal)
    (hr : r.name = target.user) (hm : m.name = p.managerRole) (hd : d.name = target.name)
    (es : List Identifier) :
    ∃ joins, (joins = joinSteps m r ∨ (joins = [] ∧ ¬refusal.Spares s)) ∧
      Follows refusal (p.provide host admin target (es.map (·.name)))
        (roleSteps m r target.password ++ joins ++
          ownerSteps s.catalog admin.user target m r d ++ schemaSteps r d es) s := by
  have hschema : ∀ t, SameRules s t → Follows refusal
      (p.withSession (Provisioner.ownerConnection host admin target) fun session =>
        p.provideSchema session target) [.schema d.name d.name r.name] t := fun t hrules => by
    exact follows_withSession hp (follows_provideSchema (hfatal.congr hrules) hp hd hd.symm hr.symm)
  have hextensions : ∀ t, Follows refusal (if (!(es.map (·.name)).isEmpty) = true then
      p.withSession (.admin host target.name admin) fun session =>
        p.server.ensureExtensions session target.name (es.map (·.name)) else pure ())
      (es.map fun e => .extension e.name) t := fun t => by
    cases es with
    | nil => exact follows_pure ()
    | cons e rest =>
        refine follows_withSession hp ?_
        rw [hp, ← hd]
        exact follows_ensureExtensions d (e :: rest)
  have hrest : ∀ (others : List ProvisionStep),
      Follows refusal (p.withSession (.admin host p.adminDatabase admin) fun session =>
        p.provideOwner session target) others s →
      Follows refusal (p.provide host admin target (es.map (·.name)))
        (others ++ schemaSteps r d es) s := fun others howner => by
    unfold Provisioner.provide
    rw [checkNames_map_name hr hm hd]
    have hrun := Follows.bind howner fun _ t _ hrules =>
      Follows.bind (hschema t hrules) fun _ u _ _ => hextensions u
    exact hrun
  have hopened : refusal.Fatal
      { s with connections := s.connections ++ [.admin host p.adminDatabase admin] } :=
    hfatal.congr ⟨rfl, rfl⟩
  rcases follows_provideRoles hopened hp hr hm with hall | ⟨hless, hunspared⟩
  · refine ⟨joinSteps m r, .inl rfl, hrest _ (follows_withSession hp ?_)⟩
    refine follows_provideOwner hopened hp hr hm hd hall fun step hstep => ?_
    rcases List.mem_append.mp hstep with h | h
    · exact isOfRoles_of_mem_roleSteps h
    · exact isOfRoles_of_mem_joinSteps h
  · refine ⟨[], .inr ⟨rfl, fun hspare => hunspared (hspare.congr ⟨rfl, rfl⟩)⟩, ?_⟩
    rw [List.append_nil]
    refine hrest _ (follows_withSession hp ?_)
    exact follows_provideOwner hopened hp hr hm hd hless fun step hstep =>
      isOfRoles_of_mem_roleSteps hstep

end Cluster

end PgSteward
