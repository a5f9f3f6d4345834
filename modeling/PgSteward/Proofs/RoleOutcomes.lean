import PgSteward.Proofs.ConvergenceRuns

/-!
# What a run on a host leaves

Which roles a login role holds after a run on a host, whether the run fails or not
(`rolesOf_outcome`).  The steps of a run do not get in each other's way: whether one of them
succeeds depends on the refusals of the server and on the memberships of other roles, and no step
changes those (`Cluster.besides`).  So it is enough to know of each step alone whether it succeeds
on the cluster as it was before the run.
-/

namespace PgSteward

namespace Program

variable {σ τ ε ε' α β : Type} {view : σ → τ}

theorem succeeds_of_ok {p : Program σ ε α} {s t : σ} {a : α} (h : p s = .ok a t) :
    p.succeeds s = true := by
  simp only [succeeds, h]

theorem succeeds_of_error {p : Program σ ε α} {s t : σ} {e : ε} (h : p s = .error e t) :
    p.succeeds s = false := by
  simp only [succeeds, h]

theorem succeeds_bind_of_ok {p : Program σ ε α} {f : α → Program σ ε β} {s t : σ} {a : α}
    (h : p s = .ok a t) : (p >>= f).succeeds s = (f a).succeeds t := by
  simp only [succeeds, bind_of_ok h]

theorem succeeds_bind_of_error {p : Program σ ε α} {f : α → Program σ ε β} {s t : σ} {e : ε}
    (h : p s = .error e t) : (p >>= f).succeeds s = false :=
  succeeds_of_error (bind_of_error h)

theorem succeeds_iff {p : Program σ ε α} {s : σ} :
    p.succeeds s = true ↔ ∃ a t, p s = .ok a t := by
  cases h : p s <;> simp [succeeds, h]

theorem outcome_eq_ok_iff {p : Program σ ε Unit} {s : σ} :
    (p.outcome s).1 = .ok () ↔ p.succeeds s = true := by
  cases h : p s <;> simp [outcome, succeeds, h]

/-- Programs that are gathered run one after the other, whatever they end with. -/
theorem gather_outcome (ps : List (Program σ ε Unit)) (s : σ) :
    ((gather ps : Program σ ε' (List ε)).outcome s).2 =
      ps.foldl (fun s p => (p.outcome s).2) s := by
  induction ps generalizing s with
  | nil => rfl
  | cons p rest ih =>
      cases h : p s with
      | ok u t =>
          rw [List.foldl_cons, outcome, outcome, h, ← ih t]
          simp only [gather, h]
          rfl
      | error e t =>
          obtain ⟨es, u, hrest⟩ : ∃ es u,
              (gather rest : Program σ ε' (List ε)) t = .ok es u := gather_ok rest t
          rw [List.foldl_cons, outcome, outcome, h, ← ih t]
          simp only [gather, h, hrest, outcome]

/-- What each of some programs preserves, all of them do one after the other. -/
theorem foldl_outcome_preserves {I : σ → Prop} {ps : List (Program σ ε Unit)}
    (h : ∀ p ∈ ps, Related (fun s t => s = t ∧ I s) p p) {s : σ} (hs : I s) :
    I (ps.foldl (fun s p => (p.outcome s).2) s) := by
  induction ps generalizing s with
  | nil => exact hs
  | cons p rest ih =>
      have hp := (h p (List.mem_cons_self ..) s s ⟨rfl, hs⟩).2.2
      exact ih (fun q hq => h q (List.mem_cons_of_mem _ hq)) hp

/-- What each of some programs keeps, all of them keep one after the other. -/
theorem keeps_foldl_outcome {ps : List (Program σ ε Unit)} (h : ∀ p ∈ ps, Keeps view p) (s : σ) :
    view (ps.foldl (fun s p => (p.outcome s).2) s) = view s :=
  foldl_outcome_preserves (I := fun t => view t = view s)
    (fun p hp t _ ⟨hsame, ht⟩ => hsame ▸ ⟨rfl, rfl, (h p hp t).trans ht⟩) rfl

/-- Whether a program succeeds depends on a view only. -/
def SucceedsBy (view : σ → τ) (p : Program σ ε α) : Prop :=
  ∀ s t, view s = view t → p.succeeds s = p.succeeds t

/-- Programs that do not get in each other's way succeed one after the other when each of them
succeeds alone. -/
theorem succeeds_sequence_iff {ps : List (Program σ ε Unit)} {s t : σ}
    (h : ∀ p ∈ ps, Keeps view p ∧ SucceedsBy view p) (hst : view s = view t) :
    (sequence ps).succeeds s = true ↔ ∀ p ∈ ps, p.succeeds t = true := by
  induction ps generalizing s with
  | nil => simp [sequence, succeeds, run_pure]
  | cons p rest ih =>
      obtain ⟨hkeeps, hby⟩ := h p (List.mem_cons_self ..)
      rw [sequence, List.forall_mem_cons, ← hby s t hst]
      cases hp : p s with
      | ok u s₁ =>
          rw [succeeds_bind_of_ok hp, succeeds_of_ok hp,
            ih (fun q hq => h q (List.mem_cons_of_mem _ hq)) ((hkeeps.of_ok hp).trans hst)]
          simp
      | error e s₁ =>
          rw [succeeds_bind_of_error hp, succeeds_of_error hp]
          simp

/-- A report of a failure changes nothing. -/
theorem outcome_failIf (e : Option ε) (s : σ) :
    ((failIf e : Program σ ε Unit).outcome s).2 = s := by
  cases e with
  | none => rfl
  | some e => rfl

theorem outcome_bind_failIf (p : Program σ ε α) (f : α → Option ε) (s : σ) :
    ((p >>= fun a => failIf (f a)).outcome s).2 = (p.outcome s).2 := by
  cases h : p s with
  | ok a t =>
      rw [outcome, outcome, bind_of_ok h, h]
      exact outcome_failIf (f a) t
  | error e t => rw [outcome, outcome, bind_of_error h, h]

theorem outcome_mapError (f : ε → ε') (p : Program σ ε α) (s : σ) :
    ((mapError f p).outcome s).2 = (p.outcome s).2 := by
  cases h : p s <;> simp [outcome, mapError, h]

theorem succeedsBy_pure (a : α) : SucceedsBy view (pure a : Program σ ε α) := fun _ _ _ => rfl

/-- A composed program succeeds by a view that its first part keeps, when the answer of this part
does not matter. -/
theorem SucceedsBy.bind {p : Program σ ε α} {f : α → Program σ ε β} (hp : SucceedsBy view p)
    (hkeeps : Keeps view p)
    (hf : ∀ a b s t, view s = view t → (f a).succeeds s = (f b).succeeds t) :
    SucceedsBy view (p >>= f) := by
  intro s t hst
  have hsame := hp s t hst
  cases hs : p s with
  | ok a s' =>
      cases ht : p t with
      | ok b t' =>
          rw [succeeds_bind_of_ok hs, succeeds_bind_of_ok ht]
          exact hf a b s' t' ((hkeeps.of_ok hs).trans (hst.trans (hkeeps.of_ok ht).symm))
      | error e t' => simp [succeeds, hs, ht] at hsame
  | error e s' =>
      cases ht : p t with
      | ok b t' => simp [succeeds, hs, ht] at hsame
      | error e' t' => rw [succeeds_bind_of_error hs, succeeds_bind_of_error ht]

theorem SucceedsBy.bind_unit {p : Program σ ε Unit} {f : Unit → Program σ ε β}
    (hp : SucceedsBy view p) (hkeeps : Keeps view p) (hf : SucceedsBy view (f ())) :
    SucceedsBy view (p >>= f) :=
  hp.bind hkeeps fun _ _ => hf

theorem succeedsBy_bind_ofExcept {x : Except ε α} {f : α → Program σ ε β}
    (hf : ∀ a, x = .ok a → SucceedsBy view (f a)) : SucceedsBy view (ofExcept x >>= f) := by
  cases x with
  | ok a => exact hf a rfl
  | error e => exact fun _ _ _ => rfl

end Program

namespace Cluster

open Program

/-- What a cluster shows besides the roles of a login role: the statements that it refuses, and the
roles of all others. -/
def besides (login : String) (s : Cluster) :
    List (String × String) × Bool × ({ name : String // name ≠ login } → NameSet) :=
  (s.failures, s.strict, fun name => s.catalog.rolesOf name)

variable {login : String} {session : Session} {st : Statement} {s t : Cluster}

theorem besides_eq_iff :
    s.besides login = t.besides login ↔ s.failures = t.failures ∧ s.strict = t.strict ∧
      ∀ name, name ≠ login → s.catalog.rolesOf name = t.catalog.rolesOf name := by
  simp only [besides, Prod.mk.injEq, funext_iff, Subtype.forall]

theorem refusal?_congr (h : s.besides login = t.besides login) : s.refusal? = t.refusal? := by
  unfold refusal?
  rw [(besides_eq_iff.mp h).1]

theorem succeeds_run : (server.run session st).succeeds s =
    ((s.refusal? st.text).isNone && (effectOf session st s).succeeds s.catalog) := by
  rw [Bool.eq_iff_iff, succeeds_iff, Bool.and_eq_true, Option.isNone_iff_eq_none, succeeds_iff,
    server_eq_refusing]
  constructor
  · rintro ⟨u, t, hrun⟩
    obtain ⟨hrefusal, c, hc, -⟩ := run_eq_ok_iff.mp hrun
    exact ⟨hrefusal, (), c, hc⟩
  · rintro ⟨hrefusal, u, c, hc⟩
    exact ⟨(), _, run_eq_ok_iff.mpr ⟨hrefusal, c, hc, rfl⟩⟩

/-- A statement that keeps the memberships of all others keeps what a cluster shows besides. -/
theorem keeps_besides_run (h : ∀ s : Cluster, ∀ name, name ≠ login →
    ((effectOf session st s).outcome s.catalog).2.rolesOf name = s.catalog.rolesOf name) :
    Keeps (besides login) (server.run session st) := by
  rw [server_eq_refusing]
  refine keeps_run fun s e c hc => besides_eq_iff.mpr ⟨rfl, rfl, fun name hname => ?_⟩
  rcases hc with rfl | rfl
  · rfl
  · exact h s name hname

theorem keeps_besides_quiet (h : st.IsQuiet) : Keeps (besides login) (server.run session st) := by
  refine keeps_besides_run fun s name _ => ?_
  rw [outcome_effect_quiet h]

theorem keeps_besides_createRole (role : Identifier) (isLogin : Bool) :
    Keeps (besides login) (server.run session (.createRole role isLogin none [])) := by
  refine keeps_besides_run fun s name _ => ?_
  rw [outcome_effect_createRole]
  rfl

theorem keeps_besides_grantRoles (role : Identifier) {member : Identifier}
    (hmember : member.name = login) :
    Keeps (besides login) (server.run session (.grantRoles [role] member)) := by
  refine keeps_besides_run fun s name hname => ?_
  rcases outcome_effect_grantRoles session s role member with hsame | hgiven
  · rw [hsame]
  · rw [hgiven, Catalog.rolesOf_addMembership, if_neg (by rw [hmember]; exact hname.symm)]

theorem keeps_besides_revokeRole (role : Identifier) {member : Identifier}
    (hmember : member.name = login) :
    Keeps (besides login) (server.run session (.revokeRole role member)) := by
  refine keeps_besides_run fun s name hname => ?_
  rcases outcome_effect_revokeRole session s role member with hsame | htaken
  · rw [hsame]
  · rw [htaken, Catalog.rolesOf_dropMembership, if_neg (by rw [hmember]; exact hname.symm)]

theorem succeedsBy_quiet (h : st.IsQuiet) :
    SucceedsBy (besides login) (server.run session st) := by
  have heffect : ∀ s : Cluster, (effectOf session st s).succeeds s.catalog = true := by
    intro s
    rw [effectOf, Statement.read_quiet h]
    rfl
  intro s t hst
  rw [succeeds_run, succeeds_run, heffect, heffect, refusal?_congr hst]

theorem succeedsBy_revokeRole (role member : Identifier) :
    SucceedsBy (besides login) (server.run session (.revokeRole role member)) := by
  have heffect : ∀ s : Cluster,
      (effectOf session (.revokeRole role member) s).succeeds s.catalog = true := by
    intro s
    rw [effectOf, Statement.read_revokeRole]
    by_cases hon : role.name = "ON"
    · rw [if_pos hon]
      rfl
    · rw [if_neg hon]
      rfl
  intro s t hst
  rw [succeeds_run, succeeds_run, heffect, heffect, refusal?_congr hst]

/-- A grant to the login role can go in a circle through another role only. -/
theorem goesInCircle_congr {role : String} (hst : s.besides login = t.besides login) :
    s.catalog.GoesInCircle s.strict login role ↔ t.catalog.GoesInCircle t.strict login role := by
  obtain ⟨-, hstrict, hroles⟩ := besides_eq_iff.mp hst
  unfold Catalog.GoesInCircle
  by_cases hself : role = login
  · simp [hself]
  · rw [hstrict, hroles role hself]

/-- A grant of a role succeeds unless it is refused or goes in a circle. -/
theorem succeeds_run_grantRoles (session : Session) (s : Cluster) (role member : Identifier) :
    (server.run session (.grantRoles [role] member)).succeeds s =
      ((s.refusal? (Statement.grantRoles [role] member).text).isNone &&
        decide (role.name = "ON" ∨ ¬s.catalog.GoesInCircle s.strict member.name role.name)) := by
  rw [succeeds_run, effectOf, Statement.read_grantRoles]
  congr 1
  by_cases hon : role.name = "ON"
  · simp only [hon, if_true, true_or, decide_true]
    rfl
  · rw [if_neg hon, Catalog.run]
    have hgrant := Catalog.grant_one s.catalog s.strict member.name role.name
    by_cases hcircle : s.catalog.GoesInCircle s.strict member.name role.name
    · rw [if_pos hcircle] at hgrant
      simp [succeeds_of_error hgrant, hon, hcircle]
    · rw [if_neg hcircle] at hgrant
      simp [succeeds_of_ok hgrant, hcircle]

theorem succeedsBy_grantRoles (role : Identifier) {member : Identifier}
    (hmember : member.name = login) :
    SucceedsBy (besides login) (server.run session (.grantRoles [role] member)) := by
  intro s t hst
  rw [succeeds_run_grantRoles, succeeds_run_grantRoles, refusal?_congr hst, hmember]
  simp only [goesInCircle_congr hst]

theorem succeedsBy_createRole (role : Identifier) (isLogin : Bool) :
    SucceedsBy (besides login) (server.create session (.createRole role isLogin none [])) := by
  have hcreate : ∀ s : Cluster,
      (server.create session (.createRole role isLogin none [])).succeeds s =
        ((s.refusal? (Statement.createRole role isLogin none []).text).all fun code =>
          (alreadyThere? code).isSome) := by
    intro s
    rw [server_eq_refusing]
    cases hrun : (refusing refusal?).run session (.createRole role isLogin none []) s with
    | ok u t =>
        rw [succeeds_of_ok (create_of_ok hrun), (run_eq_ok_iff.mp hrun).1]
        rfl
    | error e t =>
        have hcreate := create_of_error hrun
        rcases run_eq_error_iff.mp hrun with ⟨code, hcode, rfl, -⟩ | ⟨hnone, c, hc, -⟩
        · rw [hcode]
          have hthere : (refused code (Statement.createRole role isLogin none
              []).text).isAlreadyThere = (alreadyThere? code).isSome := rfl
          rw [hthere] at hcreate
          cases h : (alreadyThere? code).isSome with
          | true =>
              rw [h, if_pos rfl] at hcreate
              rw [succeeds_of_ok hcreate, Option.all_some, h]
          | false =>
              rw [h] at hcreate
              rw [succeeds_of_error hcreate, Option.all_some, h]
        · rw [effectOf, Statement.read_createRole, Statement.newRoles_createRole,
            Catalog.run_createRole] at hc
          by_cases h : role.name ∈ s.catalog.roles
          · rw [if_pos h] at hc
            cases hc
            rw [if_pos (show (Catalog.alreadyThere "42710" "role" role.name).isAlreadyThere = true
              from rfl)] at hcreate
            rw [succeeds_of_ok hcreate, hnone]
            rfl
          · rw [if_neg h] at hc
            cases hc
  intro s t hst
  rw [hcreate, hcreate, refusal?_congr hst]

/-! ## Failures -/

/-- Work on a name fails when the name is no identifier, or when the work on it fails. -/
theorem bind_name_eq_error_iff {α : Type} {name : String} {e : SqlError}
    {f : Identifier → Program Cluster SqlError α} :
    (ofExcept (Identifier.of name) >>= f) s = .error e t ↔
      (isName name = false ∧ e = .unsafeName name ∧ t = s) ∨
        ∃ i : Identifier, i.name = name ∧ f i s = .error e t := by
  cases hname : Identifier.of name with
  | ok i =>
      have hi := Identifier.of_eq_ok_iff.mp hname
      show f i s = .error e t ↔ _
      constructor
      · exact fun h => .inr ⟨i, hi, h⟩
      · rintro (⟨hno, -, -⟩ | ⟨j, hj, h⟩)
        · rw [← hi, i.isName] at hno
          cases hno
        · have hij : Identifier.of name = .ok j := Identifier.of_eq_ok_iff.mpr hj
          rw [hname] at hij
          cases hij
          exact h
  | error e' =>
      obtain ⟨hno, rfl⟩ := Identifier.of_eq_error_iff.mp hname
      show (EStateM.Result.error (SqlError.unsafeName name) s : EStateM.Result _ _ α) = _ ↔ _
      constructor
      · intro h
        cases h
        exact .inl ⟨hno, rfl, rfl⟩
      · rintro (⟨-, rfl, rfl⟩ | ⟨i, hi, -⟩)
        · rfl
        · rw [← hi, i.isName] at hno
          cases hno

/-- A grant of a role that fails leaves the catalog as it is. -/
theorem grantRole_error {role member : String} {e : SqlError}
    (h : server.grantRole session role member s = .error e t) : t.catalog = s.catalog := by
  unfold Server.grantRole at h
  rcases bind_name_eq_error_iff.mp h with ⟨-, -, rfl⟩ | ⟨r, -, hmember⟩
  · rfl
  rcases bind_name_eq_error_iff.mp hmember with ⟨-, -, rfl⟩ | ⟨m, -, hrun⟩
  · rfl
  rw [server_eq_refusing] at hrun
  rcases run_eq_error_iff.mp hrun with ⟨code, -, -, rfl⟩ | ⟨-, c, hc, rfl⟩
  · rfl
  rw [effectOf, Statement.read_grantRoles] at hc
  by_cases hon : r.name = "ON"
  · rw [if_pos hon] at hc
    cases hc
  · rw [if_neg hon, Catalog.run, Catalog.grant_one] at hc
    split at hc
    next =>
      cases hc
      rfl
    next => cases hc

/-- The end of a membership that fails leaves the catalog as it is. -/
theorem revokeRole_error {role member : String} {e : SqlError}
    (h : server.revokeRole session role member s = .error e t) : t.catalog = s.catalog := by
  unfold Server.revokeRole at h
  rcases bind_name_eq_error_iff.mp h with ⟨-, -, rfl⟩ | ⟨r, -, hmember⟩
  · rfl
  rcases bind_name_eq_error_iff.mp hmember with ⟨-, -, rfl⟩ | ⟨m, -, hrun⟩
  · rfl
  rw [server_eq_refusing] at hrun
  rcases run_eq_error_iff.mp hrun with ⟨code, -, -, rfl⟩ | ⟨-, c, hc, rfl⟩
  · rfl
  rw [effectOf, Statement.read_revokeRole] at hc
  by_cases hon : r.name = "ON"
  · rw [if_pos hon] at hc
    cases hc
  · rw [if_neg hon] at hc
    cases hc

end Cluster

namespace Converger

open Program

variable {c : Converger Cluster} {session : Session} {login host role : String}
  {admin : AdminLogin} {s t : Cluster}

/-! ## One step -/

theorem keeps_besides_grantRole :
    Keeps (Cluster.besides login) (Cluster.server.grantRole session role login) :=
  keeps_bind (keeps_ofExcept _) fun r => keeps_bind_ofExcept fun _ hm =>
    Cluster.keeps_besides_grantRoles r (Identifier.of_eq_ok_iff.mp hm)

theorem succeedsBy_grantRole :
    SucceedsBy (Cluster.besides login) (Cluster.server.grantRole session role login) :=
  succeedsBy_bind_ofExcept fun r _ => succeedsBy_bind_ofExcept fun _ hm =>
    Cluster.succeedsBy_grantRoles r (Identifier.of_eq_ok_iff.mp hm)

theorem keeps_besides_revokeRole :
    Keeps (Cluster.besides login) (Cluster.server.revokeRole session role login) :=
  keeps_bind (keeps_ofExcept _) fun r => keeps_bind_ofExcept fun _ hm =>
    Cluster.keeps_besides_revokeRole r (Identifier.of_eq_ok_iff.mp hm)

theorem succeedsBy_revokeRole {member : String} :
    SucceedsBy (Cluster.besides login) (Cluster.server.revokeRole session role member) :=
  succeedsBy_bind_ofExcept fun r _ => succeedsBy_bind_ofExcept fun m _ =>
    Cluster.succeedsBy_revokeRole r m

/-- Whether a role can be taken away does not depend on the session. -/
theorem succeeds_revokeRole_session (session session' : Session) (role : String) :
    (Cluster.server.revokeRole session role login).succeeds s =
      (Cluster.server.revokeRole session' role login).succeeds s := by
  unfold Server.revokeRole
  cases Identifier.of role with
  | error e => rfl
  | ok i =>
      cases Identifier.of login with
      | error e => rfl
      | ok j =>
          show (Cluster.server.run session (.revokeRole i j)).succeeds s =
            (Cluster.server.run session' (.revokeRole i j)).succeeds s
          rw [Cluster.succeeds_run, Cluster.succeeds_run, Cluster.effectOf, Cluster.effectOf,
            Statement.read_revokeRole]
          by_cases hon : i.name = "ON"
          · rw [if_pos hon]
            rfl
          · rw [if_neg hon]
            rfl

theorem keeps_besides_ensureRole {name : String} {isLogin : Bool} :
    Keeps (Cluster.besides login) (Cluster.server.ensureRole session name isLogin [] none) :=
  Server.keeps_ensureRole fun i => Cluster.keeps_besides_createRole i isLogin

theorem succeedsBy_ensureRole {name : String} {isLogin : Bool} :
    SucceedsBy (Cluster.besides login)
      (Cluster.server.ensureRole session name isLogin [] none) := by
  rw [Server.ensureRole_plain]
  refine succeedsBy_bind_ofExcept fun i _ => (Cluster.succeedsBy_createRole i isLogin).bind
    (Server.keeps_create (Cluster.keeps_besides_createRole i isLogin)) ?_
  exact fun _ _ _ _ _ => rfl

theorem keeps_besides_prepare (hc : c.server = Cluster.server) {grant : ManagedGrant} :
    Keeps (Cluster.besides login) (c.prepare host admin role grant) := by
  refine keeps_prepare ?_ ?_ ?_ ?_
  · rw [hc]
    exact fun target s => rfl
  · rw [hc]
    exact fun session i => Cluster.keeps_besides_createRole i false
  · rw [hc]
    exact fun session st hst => Cluster.keeps_besides_quiet hst
  · rw [hc]
    exact fun session s => rfl

theorem succeedsBy_grantSchemas (hc : c.server = Cluster.server) {grant : ManagedGrant}
    (schemas : List String) :
    SucceedsBy (Cluster.besides login) (c.grantSchemas session role grant schemas) := by
  induction schemas with
  | nil => exact succeedsBy_pure ()
  | cons schema rest ih =>
      have hquiet : ∀ st : Statement, st.IsQuiet →
          Keeps (Cluster.besides login) (c.server.run session st) ∧
            SucceedsBy (Cluster.besides login) (c.server.run session st) := by
        intro st hst
        rw [hc]
        exact ⟨Cluster.keeps_besides_quiet hst, Cluster.succeedsBy_quiet hst⟩
      refine SucceedsBy.bind_unit ?_ ?_ (SucceedsBy.bind_unit ?_ ?_ ih)
      · exact succeedsBy_bind_ofExcept fun s _ => succeedsBy_bind_ofExcept fun r _ =>
          (hquiet (.grantUsage s r) trivial).2
      · exact keeps_bind (keeps_ofExcept _) fun s => keeps_bind (keeps_ofExcept _) fun r =>
          (hquiet (.grantUsage s r) trivial).1
      · exact succeedsBy_bind_ofExcept fun s _ => succeedsBy_bind_ofExcept fun r _ =>
          (hquiet (.grantTables _ s r) trivial).2
      · exact keeps_bind (keeps_ofExcept _) fun s => keeps_bind (keeps_ofExcept _) fun r =>
          (hquiet (.grantTables _ s r) trivial).1

/-- Connections change nothing that the success of other work depends on. -/
theorem succeedsBy_bind_connect {α : Type} {target : ConnectionTarget}
    {f : Session → Program Cluster SqlError α}
    (hf : SucceedsBy (Cluster.besides login) (f (.opened target))) :
    SucceedsBy (Cluster.besides login) (Cluster.server.connect target >>= f) := by
  intro s t hst
  exact hf { s with connections := s.connections ++ [target] }
    { t with connections := t.connections ++ [target] } hst

theorem succeedsBy_prepare (hc : c.server = Cluster.server) {grant : ManagedGrant} :
    SucceedsBy (Cluster.besides login) (c.prepare host admin role grant) := by
  have hconnect : ∀ session st, st.IsQuiet →
      Keeps (Cluster.besides login) (Cluster.server.run session st) ∧
        SucceedsBy (Cluster.besides login) (Cluster.server.run session st) :=
    fun session st hst => ⟨Cluster.keeps_besides_quiet hst, Cluster.succeedsBy_quiet hst⟩
  unfold prepare
  rw [hc]
  refine succeedsBy_bind_connect ?_
  refine succeedsBy_ensureRole.bind_unit keeps_besides_ensureRole ?_
  refine SucceedsBy.bind_unit ?_ ?_ (SucceedsBy.bind_unit ?_ ?_ (succeedsBy_pure ()))
  · exact succeedsBy_bind_ofExcept fun d _ => succeedsBy_bind_ofExcept fun r _ =>
      (hconnect _ (.grantConnect d r) trivial).2
  · exact keeps_bind (keeps_ofExcept _) fun d => keeps_bind (keeps_ofExcept _) fun r =>
      (hconnect _ (.grantConnect d r) trivial).1
  · exact succeedsBy_grantSchemas hc _
  · refine keeps_grantSchemas (fun s r => ?_) (fun p s r => ?_) _
    · rw [hc]
      exact Cluster.keeps_besides_quiet trivial
    · rw [hc]
      exact Cluster.keeps_besides_quiet trivial

theorem keeps_besides_give (hc : c.server = Cluster.server) {grant : Option ManagedGrant} :
    Keeps (Cluster.besides login) (c.give session host admin login role grant) := by
  unfold give
  rw [hc]
  cases grant with
  | none => exact keeps_besides_grantRole
  | some grant => exact keeps_bind (keeps_besides_prepare hc) fun _ => keeps_besides_grantRole

theorem succeedsBy_give (hc : c.server = Cluster.server) {grant : Option ManagedGrant} :
    SucceedsBy (Cluster.besides login) (c.give session host admin login role grant) := by
  unfold give
  rw [hc]
  cases grant with
  | none => exact succeedsBy_grantRole
  | some grant =>
      exact (succeedsBy_prepare hc).bind_unit (keeps_besides_prepare hc) succeedsBy_grantRole

theorem keeps_besides_require (hc : c.server = Cluster.server) {member : String}
    {accesses : List PlannedAccess} :
    Keeps (Cluster.besides login) (c.require session member accesses) :=
  keeps_require fun i => by
    rw [hc]
    exact Cluster.keeps_besides_createRole i true

theorem succeedsBy_require (hc : c.server = Cluster.server) {member : String}
    {accesses : List PlannedAccess} :
    SucceedsBy (Cluster.besides login) (c.require session member accesses) := by
  unfold require
  rw [hc]
  split
  · exact succeedsBy_pure _
  · exact succeedsBy_ensureRole.bind_unit keeps_besides_ensureRole (succeedsBy_pure _)

/-- What an attempt to give a role leaves: the roles that were there, and the role if it could be
given. -/
theorem rolesOf_give (hc : c.server = Cluster.server) {grant : Option ManagedGrant}
    (other r : String) :
    r ∈ ((c.give session host admin login role grant).outcome s).2.catalog.rolesOf other ↔
      r ∈ s.catalog.rolesOf other ∨ (other = login ∧ r = role ∧ r ≠ "ON" ∧
        (c.give session host admin login role grant).succeeds s = true) := by
  have hc' : c.server = Cluster.refusing Cluster.refusal? := hc.trans Cluster.server_eq_refusing
  cases h : c.give session host admin login role grant s with
  | ok u t =>
      rw [outcome, h, succeeds_of_ok h, give_ok hc' h]
      simp
  | error e t =>
      have hkept : t.catalog.rolesOf other = s.catalog.rolesOf other := by
        unfold give at h
        rw [hc] at h
        cases grant with
        | none => rw [Cluster.grantRole_error h]
        | some grant =>
            have hprepare := keeps_memberships_prepare hc' host admin role grant
            unfold Catalog.rolesOf
            rcases bind_eq_error_iff.mp h with h₁ | ⟨u, s₁, h₁, h₂⟩
            · rw [hprepare.of_error h₁]
            · rw [Cluster.grantRole_error h₂, hprepare.of_ok h₁]
      rw [outcome, h, succeeds_of_error h, hkept]
      simp

/-- What an attempt to take a role away leaves: the roles that were there, without the role if it
could be taken away. -/
theorem rolesOf_revokeRole (other r : String) :
    r ∈ ((Cluster.server.revokeRole session role login).outcome s).2.catalog.rolesOf other ↔
      r ∈ s.catalog.rolesOf other ∧ ¬(other = login ∧ r = role ∧ r ≠ "ON" ∧
        (Cluster.server.revokeRole session role login).succeeds s = true) := by
  cases h : Cluster.server.revokeRole session role login s with
  | ok u t =>
      rw [outcome, h, succeeds_of_ok h]
      rw [Cluster.server_eq_refusing] at h
      rw [Cluster.revokeRole_ok h]
      by_cases hon : role = "ON"
      · rw [if_pos hon]
        grind
      · rw [if_neg hon, Catalog.rolesOf_dropMembership]
        by_cases hlogin : login = other
        · rw [if_pos hlogin, Std.ExtTreeSet.mem_erase]
          grind
        · rw [if_neg hlogin]
          grind
  | error e t =>
      rw [outcome, h, succeeds_of_error h, Cluster.revokeRole_error h]
      simp

/-! ## All steps -/

/-- The steps of a run keep what a cluster shows besides the roles of the login role, and whether
each of them succeeds depends on nothing else. -/
theorem besides_of_mem_steps (hc : c.server = Cluster.server) {required : RequiredRoles}
    {change : RoleChange} {p : Program Cluster SqlError Unit}
    (hp : p ∈ c.steps session host admin login required change) :
    Keeps (Cluster.besides login) p ∧ SucceedsBy (Cluster.besides login) p := by
  rcases List.mem_append.mp hp with hgive | hrevoke
  · obtain ⟨role, -, rfl⟩ := List.mem_map.mp hgive
    exact ⟨keeps_besides_give hc, succeedsBy_give hc⟩
  · obtain ⟨role, -, rfl⟩ := List.mem_map.mp hrevoke
    rw [hc]
    exact ⟨keeps_besides_revokeRole, succeedsBy_revokeRole⟩

theorem keeps_besides_gives (hc : c.server = Cluster.server)
    {grant : String → Option ManagedGrant} (roles : List String) (s : Cluster) :
    ((roles.map fun role => c.give session host admin login role (grant role)).foldl
      (fun s p => (p.outcome s).2) s).besides login = s.besides login := by
  refine keeps_foldl_outcome (fun p hp => ?_) s
  obtain ⟨role, -, rfl⟩ := List.mem_map.mp hp
  exact keeps_besides_give hc

theorem rolesOf_gives (hc : c.server = Cluster.server) {grant : String → Option ManagedGrant}
    (roles : List String) (s : Cluster) (other r : String) :
    r ∈ ((roles.map fun role => c.give session host admin login role (grant role)).foldl
      (fun s p => (p.outcome s).2) s).catalog.rolesOf other ↔
      r ∈ s.catalog.rolesOf other ∨ (other = login ∧ r ∈ roles ∧ r ≠ "ON" ∧
        (c.give session host admin login r (grant r)).succeeds s = true) := by
  induction roles generalizing s with
  | nil => simp
  | cons role rest ih =>
      have hsame : (c.give session host admin login r (grant r)).succeeds
          ((c.give session host admin login role (grant role)).outcome s).2 =
          (c.give session host admin login r (grant r)).succeeds s :=
        succeedsBy_give hc _ _ (keeps_besides_give hc s)
      rw [List.map_cons, List.foldl_cons, ih, rolesOf_give hc, hsame, List.mem_cons]
      grind

theorem rolesOf_revokes (roles : List String) (s : Cluster) (other r : String) :
    r ∈ ((roles.map fun role => Cluster.server.revokeRole session role login).foldl
      (fun s p => (p.outcome s).2) s).catalog.rolesOf other ↔
      r ∈ s.catalog.rolesOf other ∧ ¬(other = login ∧ r ∈ roles ∧ r ≠ "ON" ∧
        (Cluster.server.revokeRole session r login).succeeds s = true) := by
  induction roles generalizing s with
  | nil => simp
  | cons role rest ih =>
      have hsame : (Cluster.server.revokeRole session r login).succeeds
          ((Cluster.server.revokeRole session role login).outcome s).2 =
          (Cluster.server.revokeRole session r login).succeeds s :=
        succeedsBy_revokeRole _ _ (keeps_besides_revokeRole s)
      rw [List.map_cons, List.foldl_cons, ih, rolesOf_revokeRole, hsame, List.mem_cons]
      grind

/-! ## A run on a host -/

/-- The session of an administrator on a host. -/
def adminSession (c : Converger Cluster) (host : String) (admin : AdminLogin) : Session :=
  .opened (.admin host c.adminDatabase admin)

/-- Whether a run on a host gets to its steps: the host has a login, and the login role could be
made sure of. -/
def Reaches (c : Converger Cluster) (login host : String) (accesses : List PlannedAccess)
    (admin : AdminLogin) (s : Cluster) : Prop :=
  c.logins[host]? = some admin ∧
    (c.require (c.adminSession host admin) login accesses).succeeds s = true

/-- A cluster with one connection more. -/
def connected (host database : String) (admin : AdminLogin) (s : Cluster) : Cluster :=
  { s with connections := s.connections ++ [.admin host database admin] }

/-- Whether the login role can be made sure of is not up to the connections. -/
theorem succeeds_require_connected (hc : c.server = Cluster.server) {database : String}
    {accesses : List PlannedAccess} :
    (c.require session login accesses).succeeds (connected host database admin s) =
      (c.require session login accesses).succeeds s :=
  have hbesides : (connected host database admin s).besides login = s.besides login := rfl
  succeedsBy_require hc _ _ hbesides

/-- A run on a host without a login reports the host and does nothing. -/
theorem outcome_of_no_login {accesses : List PlannedAccess} (h : c.logins[host]? = none) :
    (c.convergeHost login host accesses).outcome s =
      (.error (.invalid s!"unknown credentials for host {host}"), s) := by
  unfold convergeHost loginFor
  rw [h]
  rfl

/-- A run on a host leaves what its steps leave, or what is left when there are none. -/
theorem outcome_convergeHost (hc : c.server = Cluster.server) {accesses : List PlannedAccess}
    (h : c.logins[host]? = some admin) :
    ((c.convergeHost login host accesses).outcome s).2 =
      match c.require (c.adminSession host admin) login accesses
        (connected host c.adminDatabase admin s) with
      | .error _ t => t
      | .ok required t => (c.steps (c.adminSession host admin) host admin login required
          (.of (t.catalog.rolesOf login).toList required)).foldl
            (fun s p => (p.outcome s).2) t := by
  have hconnect : c.server.connect (.admin host c.adminDatabase admin) s =
      .ok (c.adminSession host admin) (connected host c.adminDatabase admin s) := by
    rw [hc]
    rfl
  unfold convergeHost
  rw [loginFor_eq_ok_iff.mpr h]
  show ((mapError Error.sql _ >>= _).outcome s).2 = _
  rw [outcome_bind_failIf, outcome_mapError, outcome, bind_of_ok hconnect]
  cases hrequire : c.require (c.adminSession host admin) login accesses
      (connected host c.adminDatabase admin s) with
  | error e t => rw [bind_of_error hrequire]
  | ok required t =>
      have hask : c.server.roleMemberships (c.adminSession host admin) login t =
          .ok (t.catalog.rolesOf login).toList t := by
        rw [hc]
        rfl
      let steps := c.steps (c.adminSession host admin) host admin login required
        (.of (t.catalog.rolesOf login).toList required)
      obtain ⟨errors, u, hsteps⟩ : ∃ errors u,
          (gather steps : Program Cluster SqlError (List SqlError)) t = .ok errors u :=
        gather_ok steps t
      have hleft : ((gather steps : Program Cluster SqlError (List SqlError)).outcome t).2 =
          steps.foldl (fun s p => (p.outcome s).2) t := gather_outcome steps t
      have hclose : c.server.close (c.adminSession host admin) u = .ok () u := by
        rw [hc]
        rfl
      rw [outcome, hsteps] at hleft
      rw [bind_of_ok hrequire, bind_of_ok hask, bind_of_ok hsteps, bind_of_ok hclose]
      exact hleft

theorem keeps_memberships_require (hc : c.server = Cluster.server)
    {accesses : List PlannedAccess} :
    Keeps (·.catalog.memberships) (c.require session login accesses) :=
  keeps_require fun i => by
    rw [hc, Cluster.server_eq_refusing]
    exact Cluster.keeps_memberships_of_createRole i true

/-- A run that does not get to its steps leaves all roles. -/
theorem rolesOf_of_not_reaches (hc : c.server = Cluster.server) {accesses : List PlannedAccess}
    (h : ∀ admin, ¬c.Reaches login host accesses admin s) (other : String) :
    ((c.convergeHost login host accesses).outcome s).2.catalog.rolesOf other =
      s.catalog.rolesOf other := by
  cases hlogin : c.logins[host]? with
  | none => rw [outcome_of_no_login hlogin]
  | some admin =>
      rw [outcome_convergeHost hc hlogin]
      cases hrequire : c.require (c.adminSession host admin) login accesses
          (connected host c.adminDatabase admin s) with
      | error e t =>
          have hkept := (keeps_memberships_require hc).of_error hrequire
          exact congrArg (fun m : NameMap NameSet => m.getD other ∅) hkept
      | ok required t =>
          have hsucceeds := succeeds_of_ok hrequire
          rw [succeeds_require_connected hc] at hsucceeds
          exact absurd ⟨hlogin, hsucceeds⟩ (h admin)

/-- The steps of a run on a host for what a login role holds and needs. -/
def stepsOn (c : Converger Cluster) (login host : String) (accesses : List PlannedAccess)
    (admin : AdminLogin) (s : Cluster) : List (Program Cluster SqlError Unit) :=
  c.steps (c.adminSession host admin) host admin login (.onHost c.staticRoles accesses)
    (.of (s.catalog.rolesOf login).toList (.onHost c.staticRoles accesses))

/-- A run that gets to its steps has changed nothing by then that they depend on. -/
theorem outcome_of_reaches (hc : c.server = Cluster.server) {accesses : List PlannedAccess}
    (h : c.Reaches login host accesses admin s) :
    ∃ t, c.require (c.adminSession host admin) login accesses
        (connected host c.adminDatabase admin s) = .ok (.onHost c.staticRoles accesses) t ∧
      t.catalog.memberships = s.catalog.memberships ∧ t.besides login = s.besides login ∧
      ((c.convergeHost login host accesses).outcome s).2 =
        (c.stepsOn login host accesses admin s).foldl (fun s p => (p.outcome s).2) t := by
  obtain ⟨hlogin, hsucceeds⟩ := h
  rw [← succeeds_require_connected hc] at hsucceeds
  obtain ⟨required, t, hrequire⟩ := succeeds_iff.mp hsucceeds
  obtain rfl := require_ok hrequire
  have hkept := (keeps_memberships_require hc).of_ok hrequire
  have hroles : t.catalog.rolesOf login = s.catalog.rolesOf login :=
    congrArg (fun m : NameMap NameSet => m.getD login ∅) hkept
  have hbesides : t.besides login = (connected host c.adminDatabase admin s).besides login :=
    (keeps_besides_require hc).of_ok hrequire
  refine ⟨t, hrequire, hkept, hbesides, ?_⟩
  rw [outcome_convergeHost hc hlogin, hrequire, stepsOn, ← hroles]

/-- A run that gets to its steps changes the roles of the login role only.  It takes away the
managed roles that are not needed, as far as each can be taken away, and gives those that are
needed, as far as each can be given. -/
theorem rolesOf_outcome (hc : c.server = Cluster.server) {accesses : List PlannedAccess}
    (h : c.Reaches login host accesses admin s) (other r : String) :
    r ∈ ((c.convergeHost login host accesses).outcome s).2.catalog.rolesOf other ↔
      if other = login then
        (r ∈ s.catalog.rolesOf login ∧
          ¬(isManagedRole r = true ∧ r ∉ RequiredRoles.onHost c.staticRoles accesses ∧
            (Cluster.server.revokeRole (c.adminSession host admin) r login).succeeds s = true)) ∨
        (r ∈ RequiredRoles.onHost c.staticRoles accesses ∧ r ≠ "ON" ∧
          (c.give (c.adminSession host admin) host admin login r
            ((RequiredRoles.onHost c.staticRoles accesses)[r]?.join)).succeeds s = true)
      else r ∈ s.catalog.rolesOf other := by
  obtain ⟨t, -, hkept, hbesides, houtcome⟩ := outcome_of_reaches hc h
  have hroles : t.catalog.rolesOf other = s.catalog.rolesOf other :=
    congrArg (fun m : NameMap NameSet => m.getD other ∅) hkept
  -- Whether a step succeeds has not changed by the time the run gets to it.
  let grant : String → Option ManagedGrant := fun role =>
    (RequiredRoles.onHost c.staticRoles accesses)[role]?.join
  have hgive : (c.give (c.adminSession host admin) host admin login r (grant r)).succeeds t =
      (c.give (c.adminSession host admin) host admin login r (grant r)).succeeds s :=
    succeedsBy_give hc _ _ hbesides
  have hrevoke : ∀ roles : List String,
      (Cluster.server.revokeRole (c.adminSession host admin) r login).succeeds
        ((roles.map fun role => c.give (c.adminSession host admin) host admin login role
          (grant role)).foldl (fun s p => (p.outcome s).2) t) =
      (Cluster.server.revokeRole (c.adminSession host admin) r login).succeeds s := fun roles =>
    succeedsBy_revokeRole _ _ ((keeps_besides_gives hc roles t).trans hbesides)
  have hon : isManagedRole "ON" = false := by decide
  rw [houtcome, stepsOn, steps, List.foldl_append, hc, rolesOf_revokes, rolesOf_gives hc, hgive,
    hrevoke, RoleChange.mem_add_iff, RoleChange.mem_remove_iff, hroles]
  grind

/-! ## Runs one after the other -/

/-- The roles that a login role needs can be found out without an access, and whenever the login
role can be made sure of. -/
theorem succeeds_require {accesses : List PlannedAccess} :
    (c.require session login accesses).succeeds s =
      (accesses.isEmpty || (c.server.ensureRole session login true [] none).succeeds s) := by
  unfold require
  cases accesses.isEmpty with
  | true => rfl
  | false =>
      show (c.server.ensureRole session login true [] none >>= _).succeeds s = _
      cases h : c.server.ensureRole session login true [] none s with
      | ok u t =>
          rw [succeeds_bind_of_ok h, succeeds_of_ok h]
          rfl
      | error e t =>
          rw [succeeds_bind_of_error h, succeeds_of_error h]
          rfl

/-- A run that succeeds gets to its steps. -/
theorem reaches_of_ok (hc : c.server = Cluster.server) {accesses : List PlannedAccess}
    (h : c.convergeHost login host accesses s = .ok () t) :
    ∃ admin, c.Reaches login host accesses admin s := by
  unfold convergeHost at h
  obtain ⟨admin, s₀, hadmin, hrest⟩ := bind_eq_ok_iff.mp h
  obtain ⟨hlogin, rfl⟩ := ofExcept_eq_ok_iff.mp hadmin
  obtain ⟨errors, s₁, hwork, -⟩ := bind_eq_ok_iff.mp hrest
  rw [mapError_eq_ok_iff] at hwork
  obtain ⟨session, s₂, hconnect, hwork⟩ := bind_eq_ok_iff.mp hwork
  obtain ⟨required, s₃, hrequire, -⟩ := bind_eq_ok_iff.mp hwork
  rw [hc] at hconnect
  cases hconnect
  have hsucceeds := succeeds_of_ok hrequire
  exact ⟨admin, loginFor_eq_ok_iff.mp hlogin, (succeeds_require_connected hc).symm.trans hsucceeds⟩

/-- A run keeps what a cluster shows besides the roles of the login role. -/
theorem keeps_besides_convergeHost (hc : c.server = Cluster.server)
    (accesses : List PlannedAccess) :
    Keeps (Cluster.besides login) (c.convergeHost login host accesses) := by
  refine keeps_bind (keeps_ofExcept _) fun admin => keeps_bind (keeps_mapError ?_) fun errors =>
    keeps_iff.mpr fun v => related_failIf _
  rw [hc]
  refine keeps_bind (fun s => rfl) fun session =>
    keeps_bind (keeps_besides_require hc) fun required =>
      keeps_bind (fun s => rfl) fun existing =>
        keeps_bind (keeps_gather fun p hp => (besides_of_mem_steps hc hp).1) fun errors =>
          keeps_bind (fun s => rfl) fun u => keeps_pure errors

/-- With a login on one host only, and all accesses on it, a run leaves what one on that host with
the whole plan leaves. -/
theorem outcome_converge_single {access : AccessMap} (hsingle : c.logins.keys = [host])
    (hall : ∀ a ∈ access.all, a.host = host) :
    ((c.converge login access).outcome s).2 =
      ((c.convergeHost login host access.all).outcome s).2 := by
  unfold converge
  rw [toList_byHost_single hsingle hall, outcome_bind_failIf, gather_outcome]
  rfl

end Converger

end PgSteward
