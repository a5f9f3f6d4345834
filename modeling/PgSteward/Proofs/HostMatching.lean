import Mathlib.Logic.Basic
import PgSteward.Proofs.InvalidDatabases

/-!
# Where databases live

The host of a resource is found in two ways: with the login of its administrator, when a database is
made (`HostSelector.select`), and alone, when accesses are planned (`HostSelector.hostOf`).  Both
refuse the same resources, and where the first finds a host the second finds the same
(`HostSelector.FindsAlike`).

So an intent on all databases of a host meets the databases that are made there.  What is looked up
must not change in between: the surroundings stay among those where the look-ups answer the same
(`Planner.Steady`).  Then an access is planned exactly for the databases of the inventory that are
found on the host (`Planner.Measures.plan_ok`).
-/

namespace PgSteward

open Program

/-! ## Naming a host -/

/-- The error of a resource that names its host in no way or in both. -/
def Error.hostUnclear : Error :=
  .invalid "must specify exactly one of host and hostCredentials"

namespace HostSource

/-- Whether a resource names its host in exactly one of the two ways.  What is empty names none. -/
def IsClear (host : Option Reference) (hostCredentials : Option String) : Prop :=
  Xor (∃ r, host = some r ∧ r.isEmpty = false) (∃ n, hostCredentials = some n ∧ n ≠ "")

variable {host : Option Reference} {hostCredentials : Option String}

/-- A resource names its host by a reference alone, by credentials alone, or not clearly. -/
theorem of_cases (host : Option Reference) (hostCredentials : Option String) :
    (∃ r, HostSource.of host hostCredentials = .ok (.direct r) ∧ IsClear host hostCredentials ∧
        host = some r ∧ r.isEmpty = false) ∨
      (∃ n, HostSource.of host hostCredentials = .ok (.credentials n) ∧
        IsClear host hostCredentials ∧ ¬∃ r, host = some r ∧ r.isEmpty = false) ∨
      (HostSource.of host hostCredentials = .error .hostUnclear ∧
        ¬IsClear host hostCredentials) := by
  have hhost : ∀ r, host.filter (fun r => !r.isEmpty) = some r ↔
      host = some r ∧ r.isEmpty = false := by
    intro r
    rw [Option.filter_eq_some_iff, Bool.not_eq_true']
  have hname : ∀ n, hostCredentials.filter (fun n => !n.isEmpty) = some n ↔
      hostCredentials = some n ∧ n ≠ "" := by
    intro n
    rw [Option.filter_eq_some_iff, Bool.not_eq_true', Bool.eq_false_iff, Ne, Ne,
      String.isEmpty_iff]
  unfold HostSource.of IsClear
  simp only [← hhost, ← hname]
  cases host.filter (fun r => !r.isEmpty) <;>
    cases hostCredentials.filter (fun n => !n.isEmpty) <;> simp [Xor, Error.hostUnclear]

end HostSource

/-! ## Finding a host with and without its administrator -/

namespace HostSelector

variable {σ : Type} {s : HostSelector σ} {space field : String} {host : Option Reference}
  {hostCredentials : Option String} {reference : Reference} {name : String} {w t : σ} {e : Error}

theorem select_of_direct (h : HostSource.of host hostCredentials = .ok (.direct reference)) :
    s.select space host hostCredentials = (do
      let found ← s.resolve space "host" reference
      let login ← Program.ofExcept (loginFor s.logins found)
      return (found, login)) := by
  unfold select
  rw [h]
  rfl

theorem select_of_credentials (h : HostSource.of host hostCredentials = .ok (.credentials name)) :
    s.select space host hostCredentials = (do
      let spec ← s.fetch space name
      s.loginOf space spec) := by
  unfold select
  rw [h]
  rfl

theorem hostOf_of_direct (h : HostSource.of host hostCredentials = .ok (.direct reference)) :
    s.hostOf space host hostCredentials = s.resolve space "host" reference := by
  unfold hostOf
  rw [h]
  rfl

theorem hostOf_of_credentials (h : HostSource.of host hostCredentials = .ok (.credentials name)) :
    s.hostOf space host hostCredentials = (do
      let spec ← s.fetch space name
      s.resolve space "host" spec.host) := by
  unfold hostOf
  rw [h]
  rfl

/-! ### Who refuses a resource -/

theorem ne_hostUnclear_of_resolve (h : s.resolve space field reference w = .error e t) :
    e ≠ .hostUnclear := by
  obtain ⟨_, -, rfl⟩ := mapError_eq_error_iff.mp h
  nofun

theorem ne_hostUnclear_of_resolveOr {default : String}
    (h : s.resolveOr default space field reference w = .error e t) : e ≠ .hostUnclear := by
  unfold resolveOr at h
  cases hrun : s.resolver.resolve space reference w with
  | ok value u =>
      rw [bind_of_ok (attempt_of_ok hrun)] at h
      cases h
  | error e' u =>
      rw [bind_of_ok (attempt_of_error hrun)] at h
      cases e' <;> cases h <;> nofun

theorem ne_hostUnclear_of_loginOf {spec : HostCredentialsSpec}
    (h : s.loginOf space spec w = .error e t) : e ≠ .hostUnclear := by
  rcases bind_eq_error_iff.mp h with hhost | ⟨_, _, -, h⟩
  · exact ne_hostUnclear_of_resolve hhost
  rcases bind_eq_error_iff.mp h with huser | ⟨_, _, -, h⟩
  · exact ne_hostUnclear_of_resolve huser
  rcases bind_eq_error_iff.mp h with hpassword | ⟨_, _, -, h⟩
  · exact ne_hostUnclear_of_resolve hpassword
  cases hparams : spec.params with
  | none =>
      rw [hparams] at h
      cases h
  | some params =>
      rw [hparams] at h
      rcases bind_eq_error_iff.mp h with hparams | ⟨_, _, -, h⟩
      · exact ne_hostUnclear_of_resolveOr hparams
      · cases h

/-- No login at the start is another matter. -/
theorem loginFor_ne_hostUnclear (logins : NameMap AdminLogin) (found : String) :
    loginFor logins found ≠ .error .hostUnclear := by
  unfold loginFor
  split
  · nofun
  · intro h
    have htext := congrArg (·.toList.head?) (Error.invalid.inj (Except.error.inj h))
    simp [toString] at htext

/-- Of a fetch only the store may refuse a resource. -/
theorem fetch_eq_hostUnclear_iff : s.fetch space name w = .error .hostUnclear t ↔
    s.credentials space name w = .error .hostUnclear t := by
  unfold fetch
  rw [bind_eq_error_iff, or_iff_left_iff_imp]
  rintro ⟨found, u, -, h⟩
  cases found with
  | some spec => cases h
  | none =>
      have htext := congrArg (·.toList.head?) (Error.invalid.inj (EStateM.Result.error.inj h).1)
      simp [toString] at htext

/-! ### The same host -/

/-- Whether a resource is refused on the way to its host: unless it names its host clearly, before
anything is looked up, and otherwise only by the store of its credentials. -/
def Refuses (s : HostSelector σ) (space : String) (host : Option Reference)
    (hostCredentials : Option String) (w t : σ) : Prop :=
  (¬HostSource.IsClear host hostCredentials ∧ t = w) ∨
    ∃ name, HostSource.of host hostCredentials = .ok (.credentials name) ∧
      s.credentials space name w = .error .hostUnclear t

/-- Unless the store refuses by itself, a resource is refused when it names no host clearly. -/
theorem refuses_iff_of_store
    (hstore : ∀ name t, s.credentials space name w ≠ .error .hostUnclear t) :
    s.Refuses space host hostCredentials w t ↔
      ¬HostSource.IsClear host hostCredentials ∧ t = w := by
  refine or_iff_left ?_
  rintro ⟨name, -, hrefused⟩
  exact hstore name t hrefused

/-- What the two ways to find the host of a resource have to do with each other. -/
structure FindsAlike (s : HostSelector σ) (space : String) (host : Option Reference)
    (hostCredentials : Option String) : Prop where
  /-- A host with its administrator is refused to a resource that names none clearly. -/
  select_refuses : ∀ w t, s.select space host hostCredentials w = .error .hostUnclear t ↔
    s.Refuses space host hostCredentials w t
  /-- So is the host alone. -/
  hostOf_refuses : ∀ w t, s.hostOf space host hostCredentials w = .error .hostUnclear t ↔
    s.Refuses space host hostCredentials w t
  /-- Unless the store refuses by itself, this happens to no other resources. -/
  refuses_iff : ∀ w t, (∀ name t, s.credentials space name w ≠ .error .hostUnclear t) →
    (s.Refuses space host hostCredentials w t ↔
      ¬HostSource.IsClear host hostCredentials ∧ t = w)
  /-- A host that is found with its administrator is found alone. -/
  hostOf_of_select : ∀ w found login t,
    s.select space host hostCredentials w = .ok (found, login) t →
      ∃ u, s.hostOf space host hostCredentials w = .ok found u
  /-- A host that is found by a reference has the administrator that was given at the start. -/
  select_of_hostOf : (∃ r, host = some r ∧ r.isEmpty = false) → ∀ w found t,
    s.hostOf space host hostCredentials w = .ok found t → ∀ chosen u,
      s.select space host hostCredentials w = .ok chosen u ↔
        s.logins[found]? = some chosen.2 ∧ chosen.1 = found ∧ u = t

/-- A login that is found was given at the start. -/
theorem loginFor_eq_ok_iff {logins : NameMap AdminLogin} {found : String} {login : AdminLogin} :
    loginFor logins found = .ok login ↔ logins[found]? = some login := by
  unfold loginFor
  cases logins[found]? <;> simp

/-- The host that host credentials bring is the one that they name. -/
theorem resolve_of_loginOf {spec : HostCredentialsSpec} {found : String} {login : AdminLogin}
    (h : s.loginOf space spec w = .ok (found, login) t) :
    ∃ u, s.resolve space "host" spec.host w = .ok found u := by
  obtain ⟨_, u, hhost, h⟩ := bind_eq_ok_iff.mp h
  obtain ⟨_, _, -, h⟩ := bind_eq_ok_iff.mp h
  obtain ⟨_, _, -, h⟩ := bind_eq_ok_iff.mp h
  cases hparams : spec.params with
  | none =>
      rw [hparams] at h
      cases h
      exact ⟨u, hhost⟩
  | some params =>
      rw [hparams] at h
      obtain ⟨_, _, -, h⟩ := bind_eq_ok_iff.mp h
      cases h
      exact ⟨u, hhost⟩

/-- By a reference both look up the same text, and nothing refuses the resource. -/
theorem finds_alike_of_direct
    (hsource : HostSource.of host hostCredentials = .ok (.direct reference))
    (hclear : HostSource.IsClear host hostCredentials) :
    s.FindsAlike space host hostCredentials := by
  have hrefuses : ∀ w t, ¬s.Refuses space host hostCredentials w t := by
    rintro w t (⟨hunclear, -⟩ | ⟨name, hname, -⟩)
    · exact hunclear hclear
    · cases hsource.symm.trans hname
  constructor
  · intro w t
    rw [iff_false_right (hrefuses w t), select_of_direct hsource, bind_eq_error_iff]
    rintro (hhost | ⟨found, u, -, h⟩)
    · exact ne_hostUnclear_of_resolve hhost rfl
    · cases hfor : loginFor s.logins found with
      | ok login =>
          rw [hfor] at h
          cases h
      | error e =>
          rw [hfor] at h
          cases h
          exact loginFor_ne_hostUnclear s.logins found hfor
  · intro w t
    rw [iff_false_right (hrefuses w t), hostOf_of_direct hsource]
    exact fun h => ne_hostUnclear_of_resolve h rfl
  · exact fun w t => refuses_iff_of_store
  · intro w found login t h
    rw [select_of_direct hsource] at h
    obtain ⟨_, u, hhost, h⟩ := bind_eq_ok_iff.mp h
    obtain ⟨_, _, -, h⟩ := bind_eq_ok_iff.mp h
    cases h
    exact ⟨u, by rw [hostOf_of_direct hsource, hhost]⟩
  · rintro - w found t hhost ⟨chosen, login⟩ u
    rw [hostOf_of_direct hsource] at hhost
    rw [select_of_direct hsource, bind_of_ok hhost, bind_eq_ok_iff, ← loginFor_eq_ok_iff]
    constructor
    · rintro ⟨_, _, hrun, h⟩
      obtain ⟨hlogin, rfl⟩ := ofExcept_eq_ok_iff.mp hrun
      cases h
      exact ⟨hlogin, rfl, rfl⟩
    · rintro ⟨hlogin, rfl, rfl⟩
      exact ⟨login, u, ofExcept_eq_ok_iff.mpr ⟨hlogin, rfl⟩, rfl⟩

/-- By credentials both fetch them first, and only their store may refuse the resource. -/
theorem finds_alike_of_credentials
    (hsource : HostSource.of host hostCredentials = .ok (.credentials name))
    (hclear : HostSource.IsClear host hostCredentials)
    (hnone : ¬∃ r, host = some r ∧ r.isEmpty = false) :
    s.FindsAlike space host hostCredentials := by
  have hrefuses : ∀ w t, s.Refuses space host hostCredentials w t ↔
      s.fetch space name w = .error .hostUnclear t := by
    intro w t
    rw [fetch_eq_hostUnclear_iff]
    constructor
    · rintro (⟨hunclear, -⟩ | ⟨_, hname, hstore⟩)
      · exact absurd hclear hunclear
      · cases hsource.symm.trans hname
        exact hstore
    · exact fun hstore => .inr ⟨name, hsource, hstore⟩
  constructor
  · intro w t
    rw [hrefuses, select_of_credentials hsource, bind_eq_error_iff, or_iff_left_iff_imp]
    rintro ⟨spec, u, -, h⟩
    exact absurd rfl (ne_hostUnclear_of_loginOf h)
  · intro w t
    rw [hrefuses, hostOf_of_credentials hsource, bind_eq_error_iff, or_iff_left_iff_imp]
    rintro ⟨spec, u, -, h⟩
    exact absurd rfl (ne_hostUnclear_of_resolve h)
  · exact fun w t => refuses_iff_of_store
  · intro w found login t h
    rw [select_of_credentials hsource] at h
    obtain ⟨spec, u, hfetch, hlogin⟩ := bind_eq_ok_iff.mp h
    obtain ⟨v, hhost⟩ := resolve_of_loginOf hlogin
    exact ⟨v, by rw [hostOf_of_credentials hsource, bind_of_ok hfetch, hhost]⟩
  · exact fun hgiven => absurd hgiven hnone

/-- A resource that names no host clearly is refused before anything is looked up. -/
theorem finds_alike_of_unclear
    (hsource : HostSource.of host hostCredentials = .error .hostUnclear)
    (hunclear : ¬HostSource.IsClear host hostCredentials) :
    s.FindsAlike space host hostCredentials := by
  have hfails : ∀ w, s.select space host hostCredentials w = .error .hostUnclear w ∧
      s.hostOf space host hostCredentials w = .error .hostUnclear w := by
    intro w
    unfold select hostOf
    rw [hsource]
    exact ⟨rfl, rfl⟩
  have hrefuses : ∀ w t, s.Refuses space host hostCredentials w t ↔ w = t := by
    intro w t
    constructor
    · rintro (⟨-, rfl⟩ | ⟨name, hname, -⟩)
      · rfl
      · cases hsource.symm.trans hname
    · rintro rfl
      exact .inl ⟨hunclear, rfl⟩
  constructor
  · intro w t
    rw [hrefuses, (hfails w).1, EStateM.Result.error.injEq, and_iff_right rfl]
  · intro w t
    rw [hrefuses, (hfails w).2, EStateM.Result.error.injEq, and_iff_right rfl]
  · exact fun w t => refuses_iff_of_store
  · intro w found login t h
    cases (hfails w).1.symm.trans h
  · intro _ w found t h
    cases (hfails w).2.symm.trans h

theorem finds_alike (s : HostSelector σ) (space : String) (host : Option Reference)
    (hostCredentials : Option String) : s.FindsAlike space host hostCredentials := by
  rcases HostSource.of_cases host hostCredentials with
    ⟨_, hsource, hclear, -⟩ | ⟨_, hsource, hclear, hnone⟩ | ⟨hsource, hunclear⟩
  · exact finds_alike_of_direct hsource hclear
  · exact finds_alike_of_credentials hsource hclear hnone
  · exact finds_alike_of_unclear hsource hunclear

end HostSelector

/-! ## Databases on a host -/

namespace Planner

variable {σ ε : Type} {p : Planner σ} {I : σ → Prop} {space host : String} {now : Instant}
  {intent : Intent} {databases : List DatabaseSpec} {w t : σ}

/-- Whether look-ups answer the same in all surroundings of a kind, and leave them of that kind. -/
def Steady (p : Planner σ) (I : σ → Prop) : Prop := p.Related (fun s t => I s ∧ I t) p

/-- Whether a database is found on a host. -/
def Finds (p : Planner σ) (space host : String) (database : DatabaseSpec) (w : σ) : Prop :=
  ∃ t, p.selector.hostOf space database.host database.hostCredentials w = .ok host t

/-- A database is found on the same host in all surroundings of the kind. -/
theorem Steady.finds (h : p.Steady I) (hw : I w) (ht : I t) {database : DatabaseSpec}
    (hfinds : p.Finds space host database w) : p.Finds space host database t := by
  obtain ⟨u, hrun⟩ := hfinds
  obtain ⟨v, hrun', -⟩ := (HostSelector.Related.hostOf h.selector).of_ok ⟨hw, ht⟩ hrun
  exact ⟨v, hrun'⟩

theorem Steady.isOn_ok (h : p.Steady I) (ht : I t) (space host : String)
    (database : DatabaseSpec) :
    ∃ on u, (p.isOn space host database : Program σ ε Bool) t = .ok on u ∧ I u ∧
      (on = true ↔ p.Finds space host database t) := by
  unfold isOn Finds
  have hhost : Program.Related (fun s t => I s ∧ I t)
      (p.selector.hostOf space database.host database.hostCredentials)
      (p.selector.hostOf space database.host database.hostCredentials) :=
    HostSelector.Related.hostOf h.selector
  rcases (hhost t t ⟨ht, ht⟩).cases with ⟨found, u, _, hrun, -, hu, -⟩ | ⟨e, u, _, hrun, -, hu, -⟩
  · exact ⟨found = host, u, bind_of_ok (attempt_of_ok hrun), hu, by simp [hrun]⟩
  · exact ⟨false, u, bind_of_ok (attempt_of_error hrun), hu, by simp [hrun]⟩

/-- The databases of an inventory that are on a host are those that are found there. -/
theorem Steady.databasesOn_ok (h : p.Steady I) (hw : I w) (ht : I t) (space host : String)
    (databases : List DatabaseSpec) :
    ∃ here u, (p.databasesOn space host databases : Program σ ε _) t = .ok here u ∧ I u ∧
      ∀ d, d ∈ here ↔ d ∈ databases ∧ p.Finds space host d w := by
  induction databases generalizing t with
  | nil => exact ⟨[], t, rfl, ht, by simp⟩
  | cons database rest ih =>
      obtain ⟨on, u, hon, hu, hfound⟩ := h.isOn_ok (ε := ε) ht space host database
      obtain ⟨here, v, hrest, hv, hmem⟩ := ih hu
      refine ⟨if on then database :: here else here, v, ?_, hv, fun d => ?_⟩
      · rw [databasesOn, bind_of_ok hon, bind_of_ok hrest]
        rfl
      · have hfirst : on = true ↔ p.Finds space host database w :=
          hfound.trans ⟨h.finds ht hw, h.finds hw ht⟩
        cases on with
        | false =>
            have hnot : ¬p.Finds space host database w := fun hfinds => by
              cases hfirst.mpr hfinds
            rw [if_neg (by decide), hmem, List.mem_cons, or_and_right]
            refine (or_iff_right ?_).symm
            rintro ⟨rfl, hfinds⟩
            exact hnot hfinds
        | true =>
            rw [if_pos rfl, List.mem_cons, hmem, List.mem_cons, or_and_right]
            refine or_congr_left (and_iff_left_of_imp ?_).symm
            rintro rfl
            exact hfirst.mp rfl

/-- An intent on all databases of a host that comes to something: it is active, it is allowed, its
host is found and the inventory is listed. -/
structure Measures (p : Planner σ) (now : Instant) (space : String) (intent : Intent) (w : σ)
    (host : String) (databases : List DatabaseSpec) : Prop where
  active : intent.access.isActive now = true
  all : intent.access.allDatabases = true
  allowed : p.flags.allDatabases intent.privilege = true
  resolved : ∃ t, p.selector.resolve space "host" intent.access.host w = .ok host t
  listed : ∃ t, p.inventory space w = .ok databases t

/-- The plan for such an intent alone has an access for each database that is found on the host, and
no other. -/
theorem Measures.plan_ok (hmeasures : p.Measures now space intent w host databases)
    (h : p.Steady I) (hw : I w) {reads : List AccessIntent} {writes : List WriteIntent}
    (halone : Intent.ofUser reads writes = [intent]) :
    ∃ plan t, (p.plan now space reads writes : Program σ ε Plan) w = .ok plan t ∧
      plan.errors = [] ∧ ∀ a, a ∈ plan.access.all ↔
        ∃ d ∈ databases, p.Finds space host d w ∧ a = p.accessOn intent host d.name d.name := by
  obtain ⟨w₁, hresolve⟩ := hmeasures.resolved
  obtain ⟨_, hlisted⟩ := hmeasures.listed
  obtain ⟨-, -, hw₁, -⟩ := (HostSelector.Related.resolve h.selector).of_ok ⟨hw, hw⟩ hresolve
  obtain ⟨w₂, hlist, -, hw₂⟩ := (h.inventory space).of_ok ⟨hw, hw₁⟩ hlisted
  obtain ⟨here, t, hhere, -, hmem⟩ := h.databasesOn_ok (ε := Error) hw hw₂ space host databases
  have hrun : p.planIntent now space none intent w =
      .ok (some databases, here.map fun d => p.accessOn intent host d.name d.name) t := by
    rw [planIntent_of_all hmeasures.active hmeasures.all, bind_of_ok hresolve,
      planAll_of_allowed hmeasures.allowed, bind_of_ok hlist, bind_of_ok hhere]
    rfl
  refine ⟨({} : Plan).add (here.map fun d => p.accessOn intent host d.name d.name), t, ?_, rfl,
    fun a => ?_⟩
  · unfold plan
    rw [halone]
    exact planAlone_of_ok hrun
  · rw [Plan.mem_add, or_iff_right (by simp [AccessMap.all]), List.mem_map]
    simp only [hmem, and_assoc, eq_comm]

end Planner

/-! ## Databases that are made -/

namespace Services

variable {σ : Type} {s : Services σ} {space : String} {spec : DatabaseSpec} {provided : Provided}
  {w t : σ}

/-- A database is made on the host that is found for it. -/
theorem hostOf_of_provideDatabase (h : s.provideDatabase space spec w = .ok provided t) :
    ∃ u, s.selector.hostOf space spec.host spec.hostCredentials w = .ok provided.host u := by
  unfold provideDatabase at h
  split at h
  next => cases h
  next =>
    obtain ⟨⟨host, admin⟩, u, hselect, h⟩ := bind_eq_ok_iff.mp h
    obtain ⟨_, _, -, h⟩ := bind_eq_ok_iff.mp h
    obtain ⟨_, _, -, h⟩ := bind_eq_ok_iff.mp h
    obtain ⟨_, _, -, h⟩ := bind_eq_ok_iff.mp h
    cases h
    exact (s.selector.finds_alike space spec.host spec.hostCredentials).hostOf_of_select w host
      admin u hselect

end Services

/-- Whether a plan has the databases of an inventory that are made on a host, and none that lives
elsewhere. -/
structure Plan.Covers {σ : Type} (plan : Plan) (settings : Settings) (around : Surroundings σ)
    (I : σ → Prop) (space : String) (intent : Intent) (w : σ) (host : String)
    (databases : List DatabaseSpec) : Prop where
  /-- A database that is made on the host at any time has an access. -/
  provided : ∀ d ∈ databases, ∀ now s user t, I s →
    (settings.services around now).provideDatabase space d s = .ok ⟨host, user⟩ t →
      (settings.planner around).accessOn intent host d.name d.name ∈ plan.access.all
  /-- There is no access by the name of databases none of which is found on the host. -/
  elsewhere : ∀ name, (∀ d ∈ databases, d.name = name →
      ¬(settings.planner around).Finds space host d w) →
    ∀ a ∈ plan.access.all, a.database ≠ name

/-- Under all settings and in all surroundings the two ways to find the host of a resource agree.
So while look-ups keep to surroundings where they answer the same, an intent on all databases of a
host comes to accesses for all databases that are made there, and for none that lives elsewhere. -/
theorem Settings.hosts_match {σ ε : Type} (settings : Settings) (around : Surroundings σ)
    (space : String) :
    (∀ host hostCredentials,
      (settings.selector around).FindsAlike space host hostCredentials) ∧
    ∀ I, (settings.planner around).Steady I → ∀ w, I w → ∀ now intent host databases,
      (settings.planner around).Measures now space intent w host databases →
      ∀ reads writes, Intent.ofUser reads writes = [intent] →
        ∃ plan t, ((settings.planner around).plan now space reads writes : Program σ ε Plan) w =
            .ok plan t ∧ plan.errors = [] ∧
          plan.Covers settings around I space intent w host databases := by
  refine ⟨fun host hostCredentials => HostSelector.finds_alike _ space host hostCredentials, ?_⟩
  intro I h w hw now intent host databases hmeasures reads writes halone
  obtain ⟨plan, t, hplan, herrors, hmem⟩ := hmeasures.plan_ok (ε := ε) h hw halone
  refine ⟨plan, t, hplan, herrors, fun d hd now s user u hs hprovided => ?_,
    fun name helsewhere a ha hname => ?_⟩
  · exact (hmem _).mpr ⟨d, hd, h.finds hs hw (Services.hostOf_of_provideDatabase hprovided), rfl⟩
  · obtain ⟨d, hd, hfinds, rfl⟩ := (hmem a).mp ha
    exact helsewhere d hd hname hfinds

/-! ## A fleet of databases -/

/-- Billing, whose host is named by credentials. -/
def fleetBilling : DatabaseSpec where
  name := "billing"
  password := some (.inline "secret")
  hostCredentials := some "main"

/-- Databases on two hosts, and one whose host cannot be found. -/
def fleet : List DatabaseSpec :=
  [fleetBilling, { name := "audit", host := some (.inline "logs:5432") },
    { name := "lost", hostCredentials := some "missing" }]

/-- Finds the credentials of the host of billing, and the fleet. -/
def fleetLookups : Lookups where
  logins := ∅
  flags := {}
  text := fun kind space key => .error (.notFound kind space key.name)
  credentials := fun _ name => .ok <|
    if name = "main" then
      some { host := .inline "db:5432", user := .inline "root", password := .inline "pw" }
    else none
  databases := fun _ => .ok fleet

/-- All databases may be read at once. -/
def fleetSettings : Settings where
  flags := { allDatabasesRead := true }
  managerRole := "manager"

/-- The services that make the databases of the fleet. -/
def fleetServices : Services Cluster :=
  fleetSettings.services fleetLookups.surroundings writeCall.now

/-- Plans accesses to the databases of the fleet. -/
def fleetPlanner : Planner Cluster := fleetSettings.planner fleetLookups.surroundings

theorem fleetPlanner_steady : fleetPlanner.Steady fun _ => True where
  selector := ⟨rfl, fun space name => related_ofExcept (fleetLookups.credentials space name),
    fun kind space key => related_ofExcept (fleetLookups.text kind space key)⟩
  inventory := fun space => related_ofExcept (fleetLookups.databases space)
  flags := rfl

/-- All databases of the host of billing. -/
def wholeHost : AccessIntent := { host := .inline "db:5432", allDatabases := true }

theorem wholeHost_measures : fleetPlanner.Measures writeCall.now "shop" ⟨wholeHost, .read, false⟩ {}
    "db:5432" fleet :=
  ⟨by decide, rfl, rfl, ⟨_, rfl⟩, ⟨_, rfl⟩⟩

/-- Billing is made on its host. -/
theorem billing_made : ∃ t, fleetServices.provideDatabase "shop" fleetBilling {} =
    .ok ⟨"db:5432", "billing"⟩ t := by
  obtain ⟨provided, hrun⟩ := exists_ok_of_succeeds
    (p := fleetServices.provideDatabase "shop" fleetBilling) (s := {}) (by decide +kernel)
  have houtcome : ((fleetServices.provideDatabase "shop" fleetBilling).outcome {}).1.toOption =
      some ⟨"db:5432", "billing"⟩ := by decide +kernel
  rw [outcome, hrun] at houtcome
  exact ⟨_, by rw [hrun, ← Option.some.inj houtcome]⟩

/-- Billing is made on its host and may be read with all databases of the host.  A database that
lives elsewhere may not. -/
theorem fleet_hosts_match :
    fleetPlanner.Steady (fun _ => True) ∧
      fleetPlanner.Measures writeCall.now "shop" ⟨wholeHost, .read, false⟩ {} "db:5432" fleet ∧
      (∃ t, fleetServices.provideDatabase "shop" fleetBilling {} = .ok ⟨"db:5432", "billing"⟩ t) ∧
      ∃ plan t, (fleetPlanner.plan writeCall.now "shop" [wholeHost] [] :
          Program Cluster Error Plan) {} = .ok plan t ∧
        fleetPlanner.accessOn ⟨wholeHost, .read, false⟩ "db:5432" "billing" "billing" ∈
          plan.access.all ∧
        ∀ a ∈ plan.access.all, a.database ≠ "audit" := by
  obtain ⟨plan, t, hplan, -, hcovers⟩ := (Settings.hosts_match fleetSettings
    fleetLookups.surroundings "shop").2 (fun _ => True) fleetPlanner_steady {} trivial writeCall.now
    ⟨wholeHost, .read, false⟩ "db:5432" fleet wholeHost_measures [wholeHost] [] rfl
  obtain ⟨_, hbilling⟩ := billing_made
  refine ⟨fleetPlanner_steady, wholeHost_measures, ⟨_, hbilling⟩, plan, t, hplan,
    hcovers.provided fleetBilling (List.mem_cons_self ..) writeCall.now {} "billing" _ trivial
      hbilling,
    hcovers.elsewhere "audit" fun d hd hname => ?_⟩
  simp only [fleet, List.mem_cons, List.not_mem_nil, or_false] at hd
  rcases hd with rfl | rfl | rfl
  · exact absurd hname (by decide)
  · rintro ⟨u, hfound⟩
    have hhost : "logs:5432" = "db:5432" := (EStateM.Result.ok.inj hfound).1
    exact absurd hhost (by decide)
  · exact absurd hname (by decide)

end PgSteward
