import PgSteward.Proofs.InvalidDatabases
import PgSteward.Proofs.ProvisionRecord
import PgSteward.Proofs.RoleLists

/-!
# Passwords in force

What password a statement sets for a role is read off its text, with its literals read from left to
right (`passwordSet?`).  Whatever the password holds, the one that was meant is read
(`passwordSet?_text`).

A password is in force when the last statement of some work that has succeeded and sets one has set
this one (`Cluster.LeavesInForce`).  It comes from two sides: some statement has set it, on the way
for a new role or on the one for a role that is there (`Cluster.setsPassword_of_ensureRole`), and no
statement of the work sets another (`Cluster.only_of_carries`).

None of the statements for the login of a service user ends a membership, and the grant gives what
is listed if it is read as what it is.  `passwords_in_force` has it all.
-/

namespace PgSteward

open Program

/-! ## Passwords of texts -/

/-- The password that the text of a statement sets for a role.  Only the word for a login may stand
before the word for a password, so its literal is the first one. -/
def passwordSet? (role text : String) : Option String :=
  (LiteralReading.of? text).bind fun r =>
    match Text.wordsOf (String.ofList r.outside) with
    | verb :: "ROLE" :: name :: "WITH" :: options =>
        if (verb = "CREATE" ∨ verb = "ALTER") ∧ name = role ∧ "PASSWORD" ∈ options.take 2 then
          r.literals.head?
        else none
    | _ => none

example : passwordSet? "a" "CREATE ROLE a WITH LOGIN PASSWORD 'it''s' IN ROLE b" = some "it's" := by
  decide +kernel

example : passwordSet? "b" "CREATE ROLE a WITH LOGIN PASSWORD 'it''s' IN ROLE b" = none := by
  decide +kernel

/-- A text without literals sets no password. -/
theorem passwordSet?_of_isBare {text : String} (h : IsBare text) (role : String) :
    passwordSet? role text = none := by
  have hread := LiteralReading.of?_append h.quote_not_mem ""
  rw [String.append_empty] at hread
  have hempty : LiteralReading.of? "" = some {} := rfl
  rw [passwordSet?, hread, hempty, Option.map_some, Option.bind_some]
  dsimp only
  split
  · split <;> rfl
  · rfl

/-- The words in front of a password. -/
theorem Statement.Sets.words {text name password verb options rest : String}
    (h : Statement.Sets text name password verb options rest) (outside : List Char) :
    ∃ more, Text.wordsOf (String.ofList
        (s!"{verb} ROLE {name} WITH {options}PASSWORD ".toList ++ outside)) =
      verb :: "ROLE" :: name :: "WITH" :: more ∧ "PASSWORD" ∈ more.take 2 := by
  let role : Identifier := ⟨name, h.isName⟩
  have htext : (String.ofList
      (s!"{verb} ROLE {name} WITH {options}PASSWORD ".toList ++ outside)).toList =
        verb.toList ++ ' ' :: ("ROLE".toList ++ ' ' :: (role.name.toList ++ ' ' ::
          ("WITH ".toList ++ (options.toList ++ ("PASSWORD ".toList ++ outside))))) := by
    simp [toString, role]
  have hverb : Text.IsWord verb.toList := by
    have := h.verb_mem
    simp only [List.mem_cons, List.not_mem_nil, or_false] at this
    obtain rfl | rfl := this <;> decide
  rw [Statement.wordsOf_of_name hverb (by decide) htext]
  have := h.options_mem
  simp only [List.mem_cons, List.not_mem_nil, or_false] at this
  let others := (Text.words outside).map String.ofList
  obtain rfl | rfl | rfl := this
  · exact ⟨"PASSWORD" :: others, rfl, by simp⟩
  · exact ⟨"LOGIN" :: "PASSWORD" :: others, rfl, by simp⟩
  · exact ⟨"NOLOGIN" :: "PASSWORD" :: others, rfl, by simp⟩

/-- The password that a text sets is the one that was meant. -/
theorem passwordSet?_of_sets {text name password verb options rest : String}
    (h : Statement.Sets text name password verb options rest) (role : String) :
    passwordSet? role text = if name = role then some password else none := by
  obtain ⟨r, hread, -⟩ := h.sealed_rest
  obtain ⟨more, hwords, hmore⟩ := h.words r.outside
  have hverb : verb = "CREATE" ∨ verb = "ALTER" := by simpa using h.verb_mem
  rw [passwordSet?, h.text_eq, LiteralReading.of?_append h.isBare.quote_not_mem,
    LiteralReading.of?_literal_append password h.head_ne, hread, Option.map_some, Option.map_some,
    Option.bind_some]
  simp only [hwords, hverb, hmore, true_and, and_true, List.head?_cons]

/-- The text of a statement sets the password that was meant. -/
theorem passwordSet?_text (role : String) (st : Statement) :
    passwordSet? role st.text =
      st.setsPassword?.bind fun given => if given.1 = role then some given.2 else none := by
  cases hsets : st.setsPassword? with
  | none => exact passwordSet?_of_isBare (Statement.isBare_text hsets) role
  | some given =>
      obtain ⟨verb, options, rest, h⟩ := Statement.exists_sets hsets
      exact passwordSet?_of_sets h role

/-! ## Passwords of records -/

namespace Cluster

variable {role password : String} {session : Session} {s s' t t' : Cluster}

/-- The passwords that the statements of a record have set for a role, in order.  A statement that
has failed sets none. -/
def passwordsSet (role : String) (log : List PgSteward.Executed) : List String :=
  log.filterMap fun entry =>
    if entry.error.isNone then passwordSet? role entry.statement else none

/-- Whether work leaves a password in force for a role: the last of its statements that has set one
has set this one. -/
def LeavesInForce (role password : String) (s t : Cluster) : Prop :=
  ∃ new, t.log = s.log ++ new ∧ (passwordsSet role new).getLast? = some password

/-- Whether a statement of some work has set a password for a role. -/
def SetsPassword (role password : String) (s t : Cluster) : Prop :=
  ∃ earlier later entry, t.log = s.log ++ (earlier ++ entry :: later) ∧ entry.error = none ∧
    passwordSet? role entry.statement = some password

/-- A password is in force that is set by work that sets no other. -/
theorem leavesInForce_of_only (hsets : SetsPassword role password s t)
    (honly : t.RecordsOnly (fun text => ∀ w ∈ passwordSet? role text, w = password) s.log) :
    LeavesInForce role password s t := by
  obtain ⟨earlier, later, entry, hlog, herror, hset⟩ := hsets
  obtain ⟨new, hnew, hkind⟩ := honly
  obtain rfl := List.append_cancel_left (hnew.symm.trans hlog)
  refine ⟨_, hlog, ?_⟩
  have hmem : password ∈ passwordsSet role (earlier ++ entry :: later) :=
    List.mem_filterMap.mpr ⟨entry, by simp, by simp [herror, hset]⟩
  have hall : ∀ w ∈ passwordsSet role (earlier ++ entry :: later), w = password := by
    intro w hw
    obtain ⟨other, hother, hw⟩ := List.mem_filterMap.mp hw
    split at hw
    next => exact hkind other hother w hw
    next => cases hw
  rw [List.getLast?_eq_some_getLast (List.ne_nil_of_mem hmem),
    hall _ (List.getLast_mem (List.ne_nil_of_mem hmem))]

/-- A statement that holds no other password sets no other. -/
theorem only_of_carries {st : Statement} (h : st.Carries (some password)) :
    ∀ w ∈ passwordSet? role st.text, w = password := by
  intro w hw
  rw [passwordSet?_text] at hw
  obtain ⟨given, hgiven, hw⟩ := Option.bind_eq_some_iff.mp hw
  split at hw
  next =>
    cases hw
    exact Option.some.inj (Statement.carries_iff.mp h given hgiven)
  next => cases hw

theorem SetsPassword.widen (h : SetsPassword role password s t) (hbefore : s'.log <+: s.log)
    (hafter : t.log <+: t'.log) : SetsPassword role password s' t' := by
  obtain ⟨earlier, later, entry, hlog, hentry⟩ := h
  obtain ⟨before, hbefore⟩ := hbefore
  obtain ⟨after, hafter⟩ := hafter
  refine ⟨before ++ earlier, later ++ after, entry, ?_, hentry⟩
  rw [← hafter, hlog, ← hbefore]
  simp only [List.append_assoc, List.cons_append]

/-- A statement that succeeds sets its password. -/
theorem setsPassword_of_run {st : Statement} (hst : st.setsPassword? = some (role, password))
    (h : server.run session st s = .ok () t) : SetsPassword role password s t := by
  refine ⟨[], [], ⟨session, st.text, none⟩, log_of_run h, rfl, ?_⟩
  rw [passwordSet?_text, hst, Option.bind_some, if_pos rfl]

theorem prefix_of_run {st : Statement} (h : server.run session st s = .ok () t) :
    s.log <+: t.log := by
  rw [log_of_run h]
  exact List.prefix_append ..

/-- A statement that has created something has succeeded. -/
theorem run_of_create {st : Statement} (h : server.create session st s = .ok true t) :
    server.run session st s = .ok () t := by
  cases hrun : server.run session st s with
  | ok u t' =>
      cases (create_of_ok hrun).symm.trans h
      rfl
  | error e t' =>
      rw [create_of_error hrun] at h
      split at h <;> cases h

/-- A role that is made sure of gets its password, with the statement that creates it or with one of
its own. -/
theorem setsPassword_of_ensureRole {login : Bool} {roles : List String}
    (h : server.ensureRole session role login roles (some password) s = .ok () t) :
    SetsPassword role password s t := by
  obtain ⟨i, rfl, hwork⟩ := bind_name_eq_ok_iff.mp h
  obtain ⟨is, s₁, hroles, hwork⟩ := bind_eq_ok_iff.mp hwork
  obtain rfl := (ofExcept_eq_ok_iff.mp hroles).2
  obtain ⟨isNew, u, hcreate, hwork⟩ := bind_eq_ok_iff.mp hwork
  have hgrant : ∀ {v : Cluster}, (if !is.isEmpty then server.run session (.grantRoles is i)
      else pure () : Program Cluster SqlError Unit) v = .ok () t → v.log <+: t.log := by
    intro v hv
    split at hv
    next => exact prefix_of_run hv
    next =>
      cases hv
      exact List.prefix_refl _
  cases isNew with
  | true =>
      have hset : SetsPassword i.name password s u :=
        setsPassword_of_run rfl (run_of_create hcreate)
      exact hset.widen (List.prefix_refl _) (hgrant hwork)
  | false =>
      obtain ⟨_, v, hset, hwork⟩ := bind_eq_ok_iff.mp hwork
      obtain ⟨error, -, hlog⟩ := log_of_create hcreate
      have hbefore : s.log <+: u.log := by
        rw [hlog]
        exact List.prefix_append ..
      have hset : SetsPassword i.name password u v := setsPassword_of_run rfl hset
      exact hset.widen hbefore (hgrant hwork)

/-- Work that only adds to the record of a cluster. -/
theorem prefix_of_related {ε α : Type} {p : Program Cluster ε α} {a : α}
    (h : Program.Related (fun u v => u = v ∧ s.log <+: u.log) p p) (hrun : p s = .ok a t) :
    s.log <+: t.log := by
  obtain ⟨_, -, -, hprefix⟩ := h.of_ok ⟨rfl, List.prefix_refl _⟩ hrun
  exact hprefix

end Cluster

open Cluster

/-! ## Databases -/

namespace Provisioner

variable {p : Provisioner Cluster} {session : Session} {target : DatabaseTarget} {s t : Cluster}

theorem setsPassword_of_provideRoles (hp : p.server = Cluster.server)
    (h : p.provideRoles session target s = .ok () t) :
    SetsPassword target.user target.password s t := by
  have hserver (before : List PgSteward.Executed) : p.server.Related
      (fun u v => u = v ∧ before <+: u.log) (fun _ => True) p.server := by
    rw [hp]
    exact related_recorded before
  obtain ⟨_, u, hmanager, h⟩ := bind_eq_ok_iff.mp h
  obtain ⟨_, v, howner, hjoin⟩ := bind_eq_ok_iff.mp h
  rw [hp] at howner
  refine (setsPassword_of_ensureRole howner).widen ?_ ?_
  · exact prefix_of_related ((hserver s.log).ensurePlainRole fun _ _ => trivial) hmanager
  · split at hjoin
    next =>
      exact prefix_of_related (related_joinManager ((hserver v.log).imp fun _ _ => trivial)) hjoin
    next =>
      cases hjoin
      exact List.prefix_refl _

theorem setsPassword_of_provideOwner (hp : p.server = Cluster.server)
    (h : p.provideOwner session target s = .ok () t) :
    SetsPassword target.user target.password s t := by
  obtain ⟨_, u, hroles, hdatabase⟩ := bind_eq_ok_iff.mp h
  refine (setsPassword_of_provideRoles hp hroles).widen (List.prefix_refl _) ?_
  have hserver : p.server.Related (fun v w => v = w ∧ u.log <+: v.log)
      (·.Carries (some target.password)) p.server := by
    rw [hp]
    exact related_recorded u.log
  refine prefix_of_related (related_bind (hserver.ensureDatabase fun _ => trivial) fun _ => ?_)
    hdatabase
  split
  · exact related_shareDatabase hserver
  · exact hserver.alterDatabaseOwner fun _ _ => trivial

end Provisioner

namespace ProvisionCall

variable {call : ProvisionCall} {s t : Cluster}

/-- A call that has succeeded has set the password of the owning role. -/
theorem setsPassword_of_ok (h : call.run Cluster.server s = .ok () t) :
    SetsPassword call.target.user call.target.password s t := by
  let p : Provisioner Cluster :=
    { server := Cluster.server, managerRole := call.managerRole,
      adminDatabase := call.adminDatabase }
  obtain ⟨_, s', hnames, h⟩ := bind_eq_ok_iff.mp h
  obtain rfl := (ofExcept_eq_ok_iff.mp hnames).2
  obtain ⟨_, u, howner, hrest⟩ := bind_eq_ok_iff.mp h
  obtain ⟨session, v, hconnect, hwork⟩ := bind_eq_ok_iff.mp howner
  cases hconnect
  obtain ⟨_, w, hwork, hclose⟩ := bind_eq_ok_iff.mp hwork
  cases hclose
  refine (Provisioner.setsPassword_of_provideOwner (p := p) rfl hwork).widen
    (List.prefix_refl _) ?_
  have hserver : p.server.Related (fun v w => v = w ∧ u.log <+: v.log) (fun _ => True) p.server :=
    related_recorded u.log
  refine prefix_of_related (related_bind (Provisioner.related_withSession hserver fun session =>
    related_bind (hserver.ensureSchema fun _ => trivial) fun _ =>
      hserver.revokePublic (fun _ => trivial) trivial trivial) fun _ => ?_) hrest
  split
  · exact Provisioner.related_withSession hserver fun session =>
      hserver.ensureExtensions fun _ _ => trivial
  · exact related_pure _

/-- A call that has succeeded leaves the password of the owning role in force. -/
theorem leavesInForce_of_ok (h : call.run Cluster.server s = .ok () t) :
    LeavesInForce call.target.user call.target.password s t := by
  refine leavesInForce_of_only (setsPassword_of_ok h) ?_
  have hserver := (related_recordsOnly
    (fun text => ∀ w ∈ passwordSet? call.target.user text, w = call.target.password) s.log).imp
    fun st (hst : st.Carries (some call.target.password)) => only_of_carries hst
  let p : Provisioner Cluster :=
    { server := Cluster.server, managerRole := call.managerRole,
      adminDatabase := call.adminDatabase }
  obtain ⟨_, -, -, honly⟩ := (Provisioner.related_provide (p := p) hserver call.host call.admin
    call.extensions).of_ok ⟨rfl, recordsOnly_refl _ s⟩ h
  exact honly

end ProvisionCall

/-! ## Memberships -/

namespace Catalog

variable {c c' : Catalog} {name role : String}

/-- A grant ends no membership. -/
theorem mem_rolesOf_grant (strict : Bool) (member : String) (roles : List String)
    (h : role ∈ c.rolesOf name) :
    role ∈ ((grant strict member roles).outcome c).2.rolesOf name := by
  induction roles generalizing c with
  | nil => exact h
  | cons other rest ih =>
      rw [outcome, grant_cons]
      by_cases hcircle : c.GoesInCircle strict member other
      · rw [if_pos hcircle]
        exact h
      · rw [if_neg hcircle]
        exact ih (mem_rolesOf_addMembership.mpr (.inl h))

/-- Every role that is granted is held afterwards. -/
theorem mem_rolesOf_of_grant {strict : Bool} {member : String} {roles : List String}
    (h : grant strict member roles c = .ok () c') (hrole : role ∈ roles) :
    role ∈ c'.rolesOf member := by
  induction roles generalizing c with
  | nil => exact absurd hrole List.not_mem_nil
  | cons other rest ih =>
      rw [grant_cons] at h
      split at h
      next => cases h
      next =>
        rcases List.mem_cons.mp hrole with rfl | hrest
        · have hgiven : role ∈ (c.addMembership member role).rolesOf member :=
            mem_rolesOf_addMembership.mpr (.inr ⟨rfl, rfl⟩)
          have hkept := mem_rolesOf_grant strict member rest hgiven
          rwa [outcome, h] at hkept
        · exact ih h hrest

/-- Only the end of a membership ends one. -/
theorem mem_rolesOf_run {user database : String} {strict : Bool} {command : Command}
    (hcommand : ∀ r m, command ≠ .revokeRole r m) (h : role ∈ c.rolesOf name) :
    role ∈ ((run user database strict command).outcome c).2.rolesOf name := by
  cases command with
  | createRole new roles =>
      rw [outcome, run_createRole]
      by_cases hthere : new ∈ c.roles
      · rw [if_pos hthere]
        exact h
      · rw [if_neg hthere]
        exact mem_rolesOf_addRole.mpr (.inl h)
  | createDatabase new =>
      rw [outcome, run_createDatabase]
      by_cases hthere : new ∈ c.databases
      · rw [if_pos hthere]
        exact h
      · rw [if_neg hthere]
        exact h
  | createSchema new =>
      rw [outcome, run_createSchema]
      by_cases hthere : (c.schemaOwner? database new).isSome
      · rw [if_pos hthere]
        exact h
      · rw [if_neg hthere]
        exact h
  | grantRoles roles member => exact mem_rolesOf_grant strict member roles h
  | revokeRole r m => exact absurd rfl (hcommand r m)
  | alterDatabaseOwner database owner => exact h
  | createExtension extension => exact h
  | malformedGrant statement => exact h
  | other => exact h

end Catalog

namespace Cluster

variable {name role password : String} {session : Session} {s t : Cluster}

/-- A cluster goes together with itself as long as the memberships of some role are kept, as far as
statements do not end any. -/
theorem related_keepsRoles (before : Cluster) (name : String) :
    server.Related
      (fun s t => s = t ∧ ∀ role ∈ before.catalog.rolesOf name, role ∈ s.catalog.rolesOf name)
      (fun st => ∀ r m, Command.read st.text ≠ .revokeRole r m) server := by
  refine (related_preserving fun _ _ hs => hs).imp fun st hst session s hs role hrole => ?_
  obtain ⟨e, c, hafter, hc⟩ := outcome_run_server session st s
  rw [hafter]
  show role ∈ c.rolesOf name
  rcases hc with rfl | rfl
  · exact hs role hrole
  · exact Catalog.mem_rolesOf_run hst (hs role hrole)

/-- A role that is made sure of holds the roles that are listed for it. -/
theorem mem_rolesOf_of_ensureRole {login : Bool} {roles : List String} {password : Option String}
    (h : server.ensureRole session name login roles password s = .ok () t)
    (hroles : Statement.IsUnmistakable roles) :
    ∀ role ∈ roles, role ∈ t.catalog.rolesOf name := by
  obtain ⟨i, rfl, hwork⟩ := bind_name_eq_ok_iff.mp h
  obtain ⟨is, s₁, his, hwork⟩ := bind_eq_ok_iff.mp hwork
  obtain ⟨isNew, u, -, hwork⟩ := bind_eq_ok_iff.mp hwork
  have hgrant : ∃ v : Cluster, (if !is.isEmpty then server.run session (.grantRoles is i)
      else pure () : Program Cluster SqlError Unit) v = .ok () t := by
    cases isNew with
    | true => exact ⟨u, hwork⟩
    | false =>
        cases password with
        | none => exact ⟨u, hwork⟩
        | some w =>
            obtain ⟨_, v, -, hwork⟩ := bind_eq_ok_iff.mp hwork
            exact ⟨v, hwork⟩
  obtain ⟨v, hgrant⟩ := hgrant
  obtain rfl := ProvisionCall.exists_of_ofAll (ofExcept_eq_ok_iff.mp his).1
  intro role hrole
  have hne : is ≠ [] := by
    rintro rfl
    cases hrole
  rw [if_pos (by simpa using hne), server_eq_refusing] at hgrant
  obtain ⟨-, c, hc, rfl⟩ := run_eq_ok_iff.mp hgrant
  rw [effectOf, Statement.read_grantList hne hroles] at hc
  exact Catalog.mem_rolesOf_of_grant hc hrole

end Cluster

/-! ## Service users -/

namespace Services

variable {σ : Type} {s : Services Cluster} {session : Session} {name password : String}
  {roles : List String} {c t : Cluster}

theorem setsPassword_of_provideLogin (hs : s.server = Cluster.server)
    (h : s.provideLogin session name password roles c = .ok () t) :
    SetsPassword name password c t := by
  obtain ⟨_, u, hensure, halter⟩ := bind_eq_ok_iff.mp h
  rw [hs] at hensure halter
  obtain ⟨i, rfl, hrun⟩ := bind_name_eq_ok_iff.mp halter
  have hset : SetsPassword i.name password u t := setsPassword_of_run rfl hrun
  refine hset.widen ?_ (List.prefix_refl _)
  exact prefix_of_related ((related_recorded (P := fun _ => True) c.log).ensureRole
    (fun _ _ => trivial) (fun _ _ _ => trivial) fun _ _ => trivial) hensure

theorem leavesInForce_of_provideLogin (hs : s.server = Cluster.server)
    (h : s.provideLogin session name password roles c = .ok () t) :
    LeavesInForce name password c t := by
  refine leavesInForce_of_only (setsPassword_of_provideLogin hs h) ?_
  have hserver := (related_recordsOnly
    (fun text => ∀ w ∈ passwordSet? name text, w = password) c.log).imp
    fun st (hst : st.Carries (some password)) => only_of_carries hst
  unfold provideLogin at h
  rw [hs] at h
  obtain ⟨_, -, -, honly⟩ := (related_bind (hserver.ensureRole (fun _ _ w hw => hw.symm)
    (fun _ w hw => hw.symm) fun _ _ => trivial) fun _ =>
      hserver.alterService fun _ => rfl).of_ok ⟨rfl, recordsOnly_refl _ c⟩ h
  exact honly

/-- The statements of a login end no membership. -/
theorem related_ensureRole_keepsRoles (before : Cluster) (other : String) {login : Bool}
    {given : Option String} : Program.Related
      (fun s t => s = t ∧ ∀ role ∈ before.catalog.rolesOf other, role ∈ s.catalog.rolesOf other)
      (Cluster.server.ensureRole session name login roles given)
      (Cluster.server.ensureRole session name login roles given) := by
  refine (related_keepsRoles before other).ensureRole ?_ ?_ ?_
  · intro i is r m
    rw [Statement.read_createRole]
    nofun
  · intro i w _ r m
    rw [Statement.read_quiet (show Statement.IsQuiet (.setPassword i w) from trivial)]
    nofun
  · exact Statement.read_grantRoles_ne

theorem related_alterService_keepsRoles (before : Cluster) (other : String) : Program.Related
      (fun s t => s = t ∧ ∀ role ∈ before.catalog.rolesOf other, role ∈ s.catalog.rolesOf other)
      (Cluster.server.alterService session name password)
      (Cluster.server.alterService session name password) := by
  refine (related_keepsRoles before other).alterService fun i r m => ?_
  rw [Statement.read_quiet (show Statement.IsQuiet (.alterService i password) from trivial)]
  nofun

/-- A login keeps the roles that it holds, and gets those that are listed for it. -/
theorem mem_rolesOf_of_provideLogin (hs : s.server = Cluster.server)
    (h : s.provideLogin session name password roles c = .ok () t) :
    (∀ role ∈ c.catalog.rolesOf name, role ∈ t.catalog.rolesOf name) ∧
      (Statement.IsUnmistakable roles → ∀ role ∈ roles, role ∈ t.catalog.rolesOf name) := by
  obtain ⟨_, u, hensure, halter⟩ := bind_eq_ok_iff.mp h
  rw [hs] at hensure halter
  obtain ⟨_, -, -, hkept⟩ := (related_ensureRole_keepsRoles c name).of_ok
    ⟨rfl, fun _ hrole => hrole⟩ hensure
  obtain ⟨_, -, -, hkept'⟩ := (related_alterService_keepsRoles u name).of_ok
    ⟨rfl, fun _ hrole => hrole⟩ halter
  refine ⟨fun role hrole => hkept' role (hkept role hrole), fun hroles role hrole => ?_⟩
  exact hkept' role (mem_rolesOf_of_ensureRole hensure hroles role hrole)

variable {settings : Settings} {l : Lookups} {now : Instant} {space host : String}
  {spec : ServiceUserSpec}

/-- A service user that has been provided for has had its password looked up and its login made. -/
theorem login_of_provideServiceUser
    (h : (settings.services l.surroundings now).provideServiceUser space spec c = .ok host t) :
    ∃ (password : String) (session : Session) (u : Cluster),
      (settings.services l.surroundings now).serviceUserPassword space spec c = .ok password c ∧
      u.log = c.log ∧ u.catalog = c.catalog ∧
      (settings.services l.surroundings now).provideLogin session spec.name password
        (spec.roles.map (·.roleName)) u = .ok () t := by
  have hselector (v : Cluster) : (settings.services l.surroundings now).selector.Related
      (fun s t => s = t ∧ id s = v) (settings.services l.surroundings now).selector :=
    ⟨rfl, fun _ _ => related_ofExcept _, fun _ _ _ => related_ofExcept _⟩
  unfold provideServiceUser at h
  split at h
  next => cases h
  next =>
    obtain ⟨found, c₁, hfound, hrest⟩ := bind_eq_ok_iff.mp h
    obtain rfl : c₁ = c := (keeps_iff.mpr fun v => (hselector v).select).of_ok hfound
    obtain ⟨password, c₂, hpassword, hmake⟩ := bind_eq_ok_iff.mp hrest
    obtain rfl : c₂ = c₁ :=
      (keeps_iff.mpr fun v => related_require (hselector v) space _ _).of_ok hpassword
    obtain ⟨_, v, hwork, hpure⟩ := bind_eq_ok_iff.mp hmake
    cases hpure
    obtain ⟨session, u, hconnect, hwork⟩ := bind_eq_ok_iff.mp (mapError_eq_ok_iff.mp hwork)
    obtain ⟨_, w, hlogin, hclose⟩ := bind_eq_ok_iff.mp hwork
    cases hclose
    have hopened : u.log = c₂.log ∧ u.catalog = c₂.catalog := by
      cases hconnect
      exact ⟨rfl, rfl⟩
    exact ⟨password, session, u, bind_eq_ok_iff.mpr ⟨found, c₂, hfound, hpassword⟩, hopened.1,
      hopened.2, hlogin⟩

end Services

/-- When a database has been made, the password of its owning role is in force, whether the role was
there or not and whatever statements the server refuses.  When a service user has been provided for,
the password that was looked up for it is in force.  It keeps the roles that it held and gets those
that are listed for it, unless the last of them is named like a word of a grant. -/
theorem passwords_in_force :
    (∀ (call : ProvisionCall) (s t : Cluster), call.run Cluster.server s = .ok () t →
      LeavesInForce call.target.user call.target.password s t) ∧
    ∀ (settings : Settings) (l : Lookups) (now : Instant) (space : String) (spec : ServiceUserSpec)
      (host : String) (s t : Cluster),
      (settings.services l.surroundings now).provideServiceUser space spec s = .ok host t →
      ∃ password,
        (settings.services l.surroundings now).serviceUserPassword space spec s =
          .ok password s ∧
        LeavesInForce spec.name password s t ∧
        (∀ role ∈ s.catalog.rolesOf spec.name, role ∈ t.catalog.rolesOf spec.name) ∧
        (Statement.IsUnmistakable (spec.roles.map (·.roleName)) →
          ∀ role ∈ spec.roles, role.roleName ∈ t.catalog.rolesOf spec.name) := by
  refine ⟨fun call s t h => call.leavesInForce_of_ok h, ?_⟩
  intro settings l now space spec host s t h
  obtain ⟨password, session, u, hpassword, hlog, hcatalog, hlogin⟩ :=
    Services.login_of_provideServiceUser h
  obtain ⟨hkept, hgiven⟩ := Services.mem_rolesOf_of_provideLogin rfl hlogin
  obtain ⟨new, hnew, hlast⟩ := Services.leavesInForce_of_provideLogin rfl hlogin
  refine ⟨password, hpassword, ⟨new, hlog ▸ hnew, hlast⟩, hcatalog ▸ hkept, ?_⟩
  exact fun hroles role hrole => hgiven hroles _ (List.mem_map_of_mem hrole)

/-! ## A role named like a word -/

/-- Billing, with a quote in its password. -/
def billing : ServiceUserSpec where
  name := "billing"
  host := .inline "db:5432"
  password := some (.inline "pw'1")
  roles := [⟨"billing_write"⟩, ⟨"orders_read"⟩]

/-- A cluster on which billing is there. -/
def billingCluster : Cluster where
  catalog :=
    { roles := Std.ExtTreeSet.ofList ["billing"] _
      memberships := NameMap.ofPairs [("billing", Std.ExtTreeSet.ofList ["legacy"] _)] }

/-- The passwords of orders and billing are in force, and billing holds three roles. -/
theorem passwords_of_orders_and_billing :
    (∃ t, ProvisionCall.ordersCall.run Cluster.server billingCluster = .ok () t ∧
      LeavesInForce "orders" "secret" billingCluster t) ∧
    ∃ host t, Services.shopServices.provideServiceUser "shop" billing billingCluster =
        .ok host t ∧
      Statement.IsUnmistakable (billing.roles.map (·.roleName)) ∧
      LeavesInForce "billing" "pw'1" billingCluster t ∧
      ∀ role ∈ ["legacy", "billing_write", "orders_read"], role ∈ t.catalog.rolesOf "billing" := by
  have horders := ok_of_succeeds (p := ProvisionCall.ordersCall.run Cluster.server)
    (s := billingCluster) (by decide +kernel)
  obtain ⟨host, hrun⟩ := exists_ok_of_succeeds
    (p := Services.shopServices.provideServiceUser "shop" billing) (s := billingCluster)
    (by decide +kernel)
  have hlegacy : "legacy" ∈ billingCluster.catalog.rolesOf "billing" := by decide +kernel
  have hroles : Statement.IsUnmistakable (billing.roles.map (·.roleName)) :=
    ⟨by decide, by decide⟩
  obtain ⟨password, hpassword, hforce, hkept, hgiven⟩ :=
    passwords_in_force.2 _ _ _ _ _ _ _ _ hrun
  cases hpassword
  refine ⟨⟨_, horders, passwords_in_force.1 _ _ _ horders⟩, host, _, hrun, hroles, hforce, ?_⟩
  intro role hrole
  simp only [List.mem_cons, List.not_mem_nil, or_false] at hrole
  obtain rfl | rfl | rfl := hrole
  · exact hkept _ hlegacy
  · exact hgiven hroles ⟨"billing_write"⟩ (by decide)
  · exact hgiven hroles ⟨"orders_read"⟩ (by decide)

/-- Billing, with a role that is named like the word in front of a member. -/
def strayBilling : ServiceUserSpec where
  name := "billing"
  host := .inline "db:5432"
  password := some (.inline "s3cret")
  roles := [⟨"orders_read"⟩, ⟨"TO"⟩]

/-- A cluster on which billing is there, and a role whose name reads like the end of a grant. -/
def strayCluster : Cluster where
  catalog :=
    { roles := Std.ExtTreeSet.ofList ["TO billing", "billing"] _
      memberships := NameMap.ofPairs [("TO billing", Std.ExtTreeSet.ofList ["legacy"] _)] }

/-- Billing holds neither of its roles when the last of them is named like the word in front of a
member.  The other one goes to the role whose name reads like the end of the grant. -/
theorem strayBilling_not_given :
    (∀ role ∈ strayBilling.roles, role.roleName ≠ "ON") ∧
      ∃ host t, Services.shopServices.provideServiceUser "shop" strayBilling strayCluster =
          .ok host t ∧
        (∀ role ∈ strayBilling.roles, role.roleName ∉ t.catalog.rolesOf strayBilling.name) ∧
        (t.catalog.rolesOf "TO billing").toList = ["", "legacy", "orders_read"] := by
  obtain ⟨host, hrun⟩ := exists_ok_of_succeeds
    (p := Services.shopServices.provideServiceUser "shop" strayBilling) (s := strayCluster)
    (by decide +kernel)
  exact ⟨by decide, host, _, hrun, by decide +kernel, by decide +kernel⟩

end PgSteward
