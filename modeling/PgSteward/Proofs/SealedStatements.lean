import PgSteward.Controller.Database
import PgSteward.Controller.ServiceUser
import PgSteward.Proofs.LiteralReading
import PgSteward.Proofs.WatchedServer

/-!
# Sealed statements

Whatever names and passwords come from resources, from settings or from a server itself, every
statement that the operator runs is sealed for the password that it works with
(`statements_sealed`).  So nothing in a name or in a password can be mistaken for anything else.

A statement is text only once its names are identifiers, so it is enough to follow the password from
where it is looked up to the statements that hold it.
-/

namespace PgSteward

open Program

variable {σ τ : Type} {R : σ → τ → Prop}

/-! ## Databases -/

/-- The same work on databases on another server. -/
def Provisioner.over (p : Provisioner σ) (server : Server τ) : Provisioner τ :=
  { server, managerRole := p.managerRole, adminDatabase := p.adminDatabase }

namespace Provisioner

variable {p : Provisioner σ} {other : Server τ} {session : Session} {target : DatabaseTarget}

theorem related_joinManager (h : p.server.Related R (·.Carries (some target.password)) other) :
    Related R (p.joinManager session target) ((p.over other).joinManager session target) := by
  refine related_bind (related_attempt (h.grantRole fun _ _ _ _ => trivial)) fun result => ?_
  cases result with
  | ok u => exact related_pure ()
  | error e =>
      dsimp only
      split
      · exact related_pure ()
      · exact related_throw e

theorem related_provideRoles (h : p.server.Related R (·.Carries (some target.password)) other) :
    Related R (p.provideRoles session target) ((p.over other).provideRoles session target) := by
  have hmanager : Related R (p.server.ensureRole session p.managerRole true [] none)
      (other.ensureRole session p.managerRole true [] none) :=
    h.ensurePlainRole fun i _ w hw => nomatch hw
  have howner : ∀ roles, Related R
      (p.server.ensureRole session target.user true roles (some target.password))
      (other.ensureRole session target.user true roles (some target.password)) := by
    intro roles
    refine h.ensureRole ?_ ?_ fun _ _ => trivial
    · intro i is w hw
      exact hw.symm
    · intro i w hw
      exact hw.symm
  unfold provideRoles Provisioner.over
  dsimp only
  refine related_bind hmanager fun _ => related_bind (howner _) fun _ => ?_
  split
  · exact related_joinManager h
  · exact related_pure _

theorem related_shareDatabase (h : p.server.Related R (·.Carries (some target.password)) other) :
    Related R (p.shareDatabase session target) ((p.over other).shareDatabase session target) := by
  unfold shareDatabase Provisioner.over
  dsimp only
  refine related_bind h.databaseOwner fun previous =>
    related_bind (h.alterDatabaseOwner fun _ _ => trivial) fun _ => ?_
  cases previous.filter fun owner => owner ≠ target.user ∧ owner ≠ p.managerRole with
  | none => exact related_pure ()
  | some owner => exact h.grantRole fun _ _ _ _ => trivial

theorem related_provideOwner (h : p.server.Related R (·.Carries (some target.password)) other) :
    Related R (p.provideOwner session target) ((p.over other).provideOwner session target) := by
  refine related_bind (related_provideRoles h) fun _ =>
    related_bind (h.ensureDatabase fun _ => trivial) fun _ => ?_
  split
  · exact related_shareDatabase h
  · exact h.alterDatabaseOwner fun _ _ => trivial

theorem related_withSession {P : Statement → Prop} (h : p.server.Related R P other)
    {connection : ConnectionTarget} {work : Session → Program σ SqlError Unit}
    {work' : Session → Program τ SqlError Unit}
    (hwork : ∀ session, Related R (work session) (work' session)) :
    Related R (p.withSession connection work) ((p.over other).withSession connection work') :=
  related_bind (h.connect connection) fun session => related_bind (hwork session) fun _ =>
    h.close session

theorem related_provide (h : p.server.Related R (·.Carries (some target.password)) other)
    (host : String) (admin : AdminLogin) (extensions : List String) :
    Related R (p.provide host admin target extensions)
      ((p.over other).provide host admin target extensions) := by
  refine related_bind (related_ofExcept _) fun _ =>
    related_bind (related_withSession h fun session => related_provideOwner h) fun _ =>
      related_bind (related_withSession h fun session => ?_) fun _ => ?_
  · exact related_bind (h.ensureSchema fun _ => trivial) fun _ =>
      h.revokePublic (fun _ => trivial) trivial trivial
  · split
    · exact related_withSession h fun session => h.ensureExtensions fun _ _ => trivial
    · exact related_pure _

end Provisioner

/-! ## Look-ups -/

namespace Services

variable {s : Services σ} {s' : Services τ}

theorem related_ownerName (h : s.selector.Related R s'.selector) (space : String)
    (spec : DatabaseSpec) : Related R (s.ownerName space spec) (s'.ownerName space spec) := by
  unfold ownerName
  cases spec.user.filter fun user => !user.isEmpty with
  | none => exact related_pure _
  | some user => exact h.resolve

theorem related_require (h : s.selector.Related R s'.selector) (space field : String)
    (reference : Option Reference) :
    Related R (s.require space field reference) (s'.require space field reference) := by
  cases reference with
  | none => exact related_throw _
  | some reference => exact h.resolve

end Services

/-! ## Passwords -/

namespace Services

variable (s : Services σ)

/-- The password of a service user, which is looked up after its host. -/
def serviceUserPassword (space : String) (spec : ServiceUserSpec) : Program σ Error String := do
  let _ ← s.selector.select space (some spec.host) none
  s.require space "password" spec.password

/-- The password of the owning role of a database, which is looked up after its host and the name of
the role. -/
def databasePassword (space : String) (spec : DatabaseSpec) : Program σ Error String := do
  let _ ← s.selector.select space spec.host spec.hostCredentials
  let _ ← s.ownerName space spec
  s.require space "password" spec.password

end Services

namespace Watched

/-- Whether a program on watched surroundings ends as it does when nobody watches, and every
statement that it runs is sealed for a password. -/
def IsSealed {ε α : Type} (password : Option String) (p : Program σ ε α)
    (q : Program (Watched σ) ε α) (start : σ) : Prop :=
  (q.outcome { now := start }).1 = (p.outcome start).1 ∧
    (q.outcome { now := start }).2.now = (p.outcome start).2 ∧
    ∀ call ∈ recordOf q start, Sealed password call.1

end Watched

/-- A server goes together with itself when it is watched. -/
theorem Server.related_watched {P : Statement → Prop} {J : String → Prop}
    (hJ : ∀ st, P st → J st.text) (server : Server σ) :
    server.Related (Watched.Shows (fun _ => True) fun text _ => J text) P server.watched where
  connect := fun _ => Watched.related_onPart fun _ _ => trivial
  run := fun _ st hst => Watched.related_onPart_after fun _ _ => ⟨trivial, hJ st hst⟩
  ask := fun _ _ => Watched.related_onPart fun _ _ => trivial
  close := fun _ => Watched.related_onPart fun _ _ => trivial

/-- Surroundings go together with themselves when they are watched. -/
theorem Surroundings.related_watched {P : Statement → Prop} {J : String → Prop}
    (hJ : ∀ st, P st → J st.text) (around : Surroundings σ) :
    around.Related (Watched.Shows (fun _ => True) fun text _ => J text) P around.watched where
  server := around.server.related_watched hJ
  read := fun _ _ _ => Watched.related_onPart fun _ _ => trivial
  hostCredentials := fun _ _ => Watched.related_onPart fun _ _ => trivial
  inventory := fun _ => Watched.related_onPart fun _ _ => trivial

namespace Watched

variable {ε α β : Type} {password : Option String} {p : Program σ ε α}
  {q : Program (Watched σ) ε α} {start : σ}

/-- Watched surroundings with an empty record. -/
def Untouched : σ → Watched σ → Prop := Shows (fun _ => True) fun _ _ => False

/-- Work that goes together with itself when it is watched, as far as statements hold no other
password, runs sealed statements. -/
theorem isSealed_of_related
    (h : Related (Shows (fun _ => True) fun text _ => Sealed password text) p q) (start : σ) :
    IsSealed password p q start := by
  obtain ⟨hsame, hnow, -, hrecord⟩ := of_related h start trivial
  exact ⟨hsame, hnow, hrecord⟩

/-- Work that starts with look-ups runs the statements of the work after them. -/
theorem IsSealed.after_lookup {f : α → Program σ ε β} {g : α → Program (Watched σ) ε β}
    (h : Related Untouched p q)
    (hafter : ∀ a s, p start = .ok a s → IsSealed password (f a) (g a) s) :
    IsSealed password (p >>= f) (q >>= g) start := by
  have huntouched : ∀ {s : σ} {w : Watched σ}, Untouched s w → w = { now := s } := by
    rintro s ⟨now, record⟩ ⟨rfl, -, hrecord⟩
    obtain rfl := List.eq_nil_iff_forall_not_mem.mpr hrecord
    rfl
  unfold IsSealed recordOf
  rcases (h start { now := start } ⟨rfl, trivial, by simp⟩).cases with
    ⟨a, s, w, hp, hq, hw⟩ | ⟨e, s, w, hp, hq, hw⟩
  · obtain rfl := huntouched hw
    rw [outcome, outcome, bind_of_ok hp, bind_of_ok hq]
    exact hafter a s hp
  · obtain rfl := huntouched hw
    rw [outcome, outcome, bind_of_error hp, bind_of_error hq]
    exact ⟨rfl, rfl, by simp⟩

end Watched

/-! ## All work -/

section Work

variable (settings : Settings) (around : Surroundings σ) (now : Instant) (start : σ)

theorem serviceUser_sealed (space : String) (spec : ServiceUserSpec) :
    Watched.IsSealed
      (((settings.services around now).serviceUserPassword space spec).outcome start).1.toOption
      ((settings.services around now).provideServiceUser space spec)
      ((settings.services around.watched now).provideServiceUser space spec) start := by
  have hlook := around.related_watched (P := fun _ => False) (J := fun _ => False) fun _ h => h
  have hselector := hlook.selector settings
  unfold Services.provideServiceUser
  split
  · exact .after_lookup (related_throw _) fun _ _ h => nomatch h
  · refine .after_lookup hselector.select fun found s hfound => ?_
    refine .after_lookup (Services.related_require hselector space _ _)
      fun password u hpassword => ?_
    have hlookup : (settings.services around now).serviceUserPassword space spec start =
        .ok password u := bind_eq_ok_iff.mpr ⟨found, s, hfound, hpassword⟩
    rw [outcome, hlookup]
    have hserver := around.server.related_watched (J := Sealed (some password))
      fun _ => Statement.sealed_text
    refine Watched.isSealed_of_related (related_bind (related_mapError ?_) fun _ =>
      related_pure _) u
    refine Provisioner.related_withSession (p := (settings.services around now).provisioner)
      hserver fun session => ?_
    refine related_bind (hserver.ensureRole ?_ ?_ fun _ _ => trivial) fun _ =>
      hserver.alterService fun _ => rfl
    · intro i is w hw
      exact hw.symm
    · intro i w hw
      exact hw.symm

theorem database_sealed (space : String) (spec : DatabaseSpec) :
    Watched.IsSealed
      (((settings.services around now).databasePassword space spec).outcome start).1.toOption
      ((settings.services around now).provideDatabase space spec)
      ((settings.services around.watched now).provideDatabase space spec) start := by
  have hlook := around.related_watched (P := fun _ => False) (J := fun _ => False) fun _ h => h
  have hselector := hlook.selector settings
  unfold Services.provideDatabase
  split
  · exact .after_lookup (related_throw _) fun _ _ h => nomatch h
  · refine .after_lookup hselector.select fun found s hfound => ?_
    refine .after_lookup (Services.related_ownerName hselector space spec) fun user u huser => ?_
    refine .after_lookup (Services.related_require hselector space _ _)
      fun password v hpassword => ?_
    have hlookup : (settings.services around now).databasePassword space spec start =
        .ok password v :=
      bind_eq_ok_iff.mpr ⟨found, s, hfound, bind_eq_ok_iff.mpr ⟨user, u, huser, hpassword⟩⟩
    rw [outcome, hlookup]
    have hserver := around.server.related_watched (J := Sealed (some password))
      fun _ => Statement.sealed_text
    exact Watched.isSealed_of_related (related_bind (related_mapError
      (Provisioner.related_provide (p := (settings.services around now).provisioner) hserver
        found.1 found.2 _)) fun _ => related_pure _) v

/-- Every statement that is run is sealed, whatever the surroundings hold and answer: when a
database is made for the password of its owning role, when the roles of a login are made to follow a
plan or the intents of a user, and when a service user or a database of a resource is seen to for
the password that is looked up for it. -/
theorem statements_sealed :
    (∀ (host : String) (admin : AdminLogin) (target : DatabaseTarget) (extensions : List String),
      Watched.IsSealed (some target.password)
        ((settings.services around now).provisioner.provide host admin target extensions)
        ((settings.services around.watched now).provisioner.provide host admin target extensions)
        start) ∧
    (∀ (login : String) (access : AccessMap),
      Watched.IsSealed none
        ((settings.services around now).granter.converger.converge login access)
        ((settings.services around.watched now).granter.converger.converge login access) start) ∧
    (∀ (at? : Instant) (space sanitized : String) (reads : List AccessIntent)
      (writes : List WriteIntent),
      Watched.IsSealed none
        ((settings.services around now).granter.sync at? space sanitized reads writes)
        ((settings.services around.watched now).granter.sync at? space sanitized reads writes)
        start) ∧
    (∀ (space : String) (spec : ServiceUserSpec),
      Watched.IsSealed
        (((settings.services around now).serviceUserPassword space spec).outcome start).1.toOption
        ((settings.services around now).provideServiceUser space spec)
        ((settings.services around.watched now).provideServiceUser space spec) start) ∧
    ∀ (space : String) (spec : DatabaseSpec),
      Watched.IsSealed
        (((settings.services around now).databasePassword space spec).outcome start).1.toOption
        ((settings.services around now).provideDatabase space spec)
        ((settings.services around.watched now).provideDatabase space spec) start := by
  have hgives : ∀ password, Converger.Gives (·.Carries password) := fun password =>
    ⟨fun _ _ => nofun, fun _ _ => trivial, fun _ _ => trivial, fun _ _ => trivial,
      fun _ _ _ => trivial⟩
  have hnone := around.related_watched (J := Sealed none) fun _ => Statement.sealed_text
  refine ⟨?_, ?_, ?_, serviceUser_sealed settings around now start,
    database_sealed settings around now start⟩
  · intro host admin target extensions
    have hserver := around.server.related_watched (J := Sealed (some target.password))
      fun _ => Statement.sealed_text
    exact Watched.isSealed_of_related (Provisioner.related_provide
      (p := (settings.services around now).provisioner) hserver host admin extensions) start
  · intro login access
    exact Watched.isSealed_of_related
      (hnone.converge (hgives none) (fun _ _ => trivial) settings login access) start
  · intro at? space sanitized reads writes
    exact Watched.isSealed_of_related
      (hnone.sync (hgives none) (fun _ _ => trivial) settings at? space sanitized reads writes)
      start

end Work

end PgSteward
