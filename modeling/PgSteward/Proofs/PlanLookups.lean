import PgSteward.Proofs.PlanParts
import PgSteward.Proofs.RelatedWork

/-!
# Plans and what they look up

What is found while a plan is made is fixed by what is looked up: the texts of references, host
credentials and the inventories of namespaces (`Lookups`).  So each intent contributes what it comes
to alone, whatever comes before it, and a plan holds the contributions of the intents that come to
something (`plan_ok`).

Look-ups may fail that did not fail before (`Loses`).  An intent that still comes to something then
contributes no more than before (`Loses.contribution`), and the same goes for a plan
(`Loses.planned_sublist`).
-/

namespace PgSteward

open Program

namespace Program

variable {σ ε ε' α β : Type}

/-- What the first of two programs answers, the second answers too. -/
def Recedes (p q : Program σ ε α) : Prop := ∀ s a t, p s = .ok a t → q s = .ok a t

theorem recedes_refl (p : Program σ ε α) : Recedes p p := fun _ _ _ h => h

theorem recedes_bind {p q : Program σ ε α} {f g : α → Program σ ε β} (h : Recedes p q)
    (hfg : ∀ a, Recedes (f a) (g a)) : Recedes (p >>= f) (q >>= g) := by
  intro s b t hrun
  obtain ⟨a, u, hp, hf⟩ := bind_eq_ok_iff.mp hrun
  exact bind_eq_ok_iff.mpr ⟨a, u, h s a u hp, hfg a u b t hf⟩

theorem recedes_mapError {p q : Program σ ε α} {f : ε → ε'} (h : Recedes p q) :
    Recedes (mapError f p) (mapError f q) := fun s a t hrun =>
  mapError_eq_ok_iff.mpr (h s a t (mapError_eq_ok_iff.mp hrun))

/-- An answer that is the same as another, or none, recedes. -/
theorem recedes_ofExcept {x y : Except ε α} (h : x = y ∨ ∃ e, x = .error e) :
    Recedes (ofExcept x : Program σ ε α) (ofExcept y) := by
  rcases h with rfl | ⟨e, rfl⟩
  · exact recedes_refl _
  · intro s a t hrun
    cases hrun

end Program

/-! ## Accesses of a plan -/

theorem AccessMap.mem_all_iff {m : AccessMap} {a : PlannedAccess} :
    a ∈ m.all ↔ ∃ key, a ∈ m.getD key [] := by
  unfold all
  rw [List.mem_flatMap]
  constructor
  · rintro ⟨⟨key, accesses⟩, hmem, ha⟩
    rw [Std.ExtTreeMap.mem_toList_iff_getElem?_eq_some] at hmem
    exact ⟨key, by rwa [Std.ExtTreeMap.getD_eq_getD_getElem?, hmem]⟩
  · rintro ⟨key, ha⟩
    rw [Std.ExtTreeMap.getD_eq_getD_getElem?] at ha
    cases hget : m[key]? with
    | none => simp [hget] at ha
    | some accesses =>
        rw [hget] at ha
        exact ⟨(key, accesses), Std.ExtTreeMap.mem_toList_iff_getElem?_eq_some.mpr hget, ha⟩

theorem Plan.mem_add {p : Plan} {accesses : List PlannedAccess} {a : PlannedAccess} :
    a ∈ (p.add accesses).access.all ↔ a ∈ p.access.all ∨ a ∈ accesses := by
  have hkey : ∀ key, a ∈ (p.add accesses).access.getD key [] ↔
      a ∈ p.access.getD key [] ∨ (a ∈ accesses ∧ a.key = key) := by
    intro key
    rw [add, NameMap.getD_foldl_push, List.mem_append, List.mem_filter, decide_eq_true_iff]
  rw [AccessMap.mem_all_iff, AccessMap.mem_all_iff]
  simp only [hkey, exists_or, exists_and_left, exists_eq', and_true]

/-! ## Instants of a plan -/

namespace Planner

variable {σ ε : Type} {p : Planner σ} {now now' : Instant} {space : String}

/-- Of the instant it only matters whether the intent is active. -/
theorem planIntent_congr {intent : Intent}
    (h : intent.access.isActive now' = intent.access.isActive now)
    (listed : Option (List DatabaseSpec)) :
    p.planIntent now' space listed intent = p.planIntent now space listed intent := by
  unfold planIntent
  rw [h]

/-- Of the instant it only matters which intents are active. -/
theorem planFrom_congr {intents : List Intent}
    (h : ∀ intent ∈ intents, intent.access.isActive now' = intent.access.isActive now) (plan : Plan)
    (listed : Option (List DatabaseSpec)) :
    (p.planFrom now' space plan listed intents : Program σ ε Plan) =
      p.planFrom now space plan listed intents := by
  induction intents generalizing plan listed with
  | nil => rfl
  | cons intent rest ih =>
      have hrest := ih fun other hother => h other (List.mem_cons_of_mem _ hother)
      rw [planFrom, planFrom, planIntent_congr (h intent (List.mem_cons_self ..))]
      simp only [hrest]

end Planner

/-! ## Look-ups -/

/-- What is looked up for plans, and what they are measured against. -/
structure Lookups where
  /-- The logins given at the start, by their hosts. -/
  logins : NameMap AdminLogin
  flags : AccessFlags
  /-- The text of a key of an object of a namespace. -/
  text : HolderKind → (space : String) → KeyOf → Except LookupError String
  /-- The host credentials of a name in a namespace, if there are such. -/
  credentials : (space name : String) → Except Error (Option HostCredentialsSpec)
  /-- The databases of a namespace. -/
  databases : (space : String) → Except Error (List DatabaseSpec)

namespace Lookups

variable {σ τ : Type} {l l' : Lookups} {now now' : Instant} {space host field : String}
  {intent : Intent} {listed : Option (List DatabaseSpec)}

/-- Finds hosts by what is looked up. -/
def selector (l : Lookups) : HostSelector σ where
  logins := l.logins
  credentials := fun space name => Program.ofExcept (l.credentials space name)
  resolver := { read := fun kind space key => Program.ofExcept (l.text kind space key) }

/-- Plans by what is looked up. -/
def planner (l : Lookups) : Planner σ where
  selector := l.selector
  inventory := fun space => Program.ofExcept (l.databases space)
  flags := l.flags

theorem answers_planner (l : Lookups) (space : String) :
    (l.planner : Planner σ).Answers space (l.databases space) := rfl

/-- The surroundings do not matter. -/
theorem related_planner (l : Lookups) (R : σ → τ → Prop) :
    (l.planner : Planner σ).Related R (l.planner : Planner τ) where
  selector := ⟨rfl, fun _ _ => related_ofExcept _, fun _ _ _ => related_ofExcept _⟩
  inventory := fun _ => related_ofExcept _
  flags := rfl

/-! ## Contributions -/

/-- What an intent comes to alone. -/
def contribution (l : Lookups) (now : Instant) (space : String) (intent : Intent) :
    Except Error (List PlannedAccess) :=
  (((l.planner : Planner Unit).planIntent now space none intent).outcome ()).1.map (·.2)

/-- What the intents come to that come to something. -/
def planned (l : Lookups) (now : Instant) (space : String) (intents : List Intent) :
    List PlannedAccess :=
  intents.flatMap fun intent => (l.contribution now space intent).toOption.getD []

theorem contribution_eq_ok_iff {accesses : List PlannedAccess} :
    l.contribution now space intent = .ok accesses ↔ ∃ listed,
      (l.planner : Planner Unit).planIntent now space none intent () =
        .ok (listed, accesses) () := by
  unfold contribution outcome
  cases (l.planner : Planner Unit).planIntent now space none intent () with
  | ok found u =>
      obtain ⟨listed, accesses'⟩ := found
      simp [Except.map]
  | error e u => simp [Except.map]

/-- Of the instant it only matters whether the intent is active. -/
theorem contribution_congr (h : intent.access.isActive now' = intent.access.isActive now) :
    l.contribution now' space intent = l.contribution now space intent := by
  unfold contribution
  rw [Planner.planIntent_congr h]

/-! ## Plans -/

theorem planned_cons (l : Lookups) (now : Instant) (space : String) (intent : Intent)
    (rest : List Intent) :
    l.planned now space (intent :: rest) =
      (l.contribution now space intent).toOption.getD [] ++ l.planned now space rest :=
  List.flatMap_cons

theorem planned_congr {intents : List Intent}
    (h : ∀ intent ∈ intents, intent.access.isActive now' = intent.access.isActive now) :
    l.planned now' space intents = l.planned now space intents := by
  unfold planned
  refine List.flatMap_congr fun intent hintent => ?_
  rw [contribution_congr (h intent hintent)]

/-- A plan that is made further holds the contributions of the further intents besides what it
holds. -/
theorem planFrom_ok {ε : Type} (h : Planner.HandsOn (l.databases space) listed)
    (intents : List Intent) (plan : Plan) :
    ∃ plan', ((l.planner : Planner Unit).planFrom now space plan listed intents :
        Program Unit ε Plan) () = .ok plan' () ∧
      ∀ a, a ∈ plan'.access.all ↔
        a ∈ plan.access.all ∨ a ∈ l.planned now space intents := by
  induction intents generalizing plan listed with
  | nil => exact ⟨plan, rfl, by simp [planned]⟩
  | cons intent rest ih =>
      have hanswers : (l.planner : Planner Unit).Answers space (l.databases space) :=
        l.answers_planner space
      cases hrun : (l.planner : Planner Unit).planIntent now space listed intent () with
      | ok found u =>
          obtain ⟨hhanded, handed, hfirst⟩ := (Planner.meets_planIntent hanswers h ()).of_ok hrun
          have hcontribution : l.contribution now space intent = .ok found.2 :=
            contribution_eq_ok_iff.mpr ⟨handed, hfirst⟩
          obtain ⟨plan', hplan', hmem⟩ := ih hhanded (plan.add found.2)
          refine ⟨plan', (Planner.planFrom_of_ok hrun plan rest).trans hplan', fun a => ?_⟩
          rw [hmem, Plan.mem_add, planned_cons, hcontribution, List.mem_append, or_assoc]
          rfl
      | error e u =>
          have hcontribution : l.contribution now space intent = .error e := by
            rw [contribution, outcome, (Planner.meets_planIntent hanswers h ()).of_error hrun]
            rfl
          obtain ⟨plan', hplan', hmem⟩ := ih h (plan.fail e)
          refine ⟨plan', (Planner.planFrom_of_error hrun plan rest).trans hplan', fun a => ?_⟩
          rw [hmem, planned_cons, hcontribution]
          rfl

/-- A plan is always made, the same in all surroundings, and leaves them as they are.  It holds the
contributions of the intents. -/
theorem exists_plan {ε : Type} (l : Lookups) (now : Instant) (space : String)
    (reads : List AccessIntent) (writes : List WriteIntent) :
    ∃ plan, (∀ s : σ, ((l.planner : Planner σ).plan now space reads writes : Program σ ε Plan) s =
        .ok plan s) ∧
      ∀ a, a ∈ plan.access.all ↔ a ∈ l.planned now space (Intent.ofUser reads writes) := by
  obtain ⟨plan, hplan, hmem⟩ : ∃ plan, ((l.planner : Planner Unit).planFrom now space {} none
      (Intent.ofUser reads writes) : Program Unit ε Plan) () = .ok plan () ∧
        ∀ a, a ∈ plan.access.all ↔ a ∈ ({} : Plan).access.all ∨
          a ∈ l.planned now space (Intent.ofUser reads writes) :=
    planFrom_ok Planner.handsOn_none _ _
  refine ⟨plan, fun s => ?_, fun a => ?_⟩
  · obtain ⟨t, hrun, rfl⟩ := ((l.related_planner fun _ t => t = s).planFrom now {} none
      (Intent.ofUser reads writes)).of_ok rfl hplan
    exact hrun
  · rw [hmem]
    simp [AccessMap.all]

theorem plan_ok {ε : Type} (l : Lookups) (now : Instant) (space : String)
    (reads : List AccessIntent) (writes : List WriteIntent) (s : σ) :
    ∃ plan, ((l.planner : Planner σ).plan now space reads writes : Program σ ε Plan) s =
        .ok plan s ∧
      ∀ a, a ∈ plan.access.all ↔ a ∈ l.planned now space (Intent.ofUser reads writes) := by
  obtain ⟨plan, hplan, hmem⟩ := l.exists_plan (σ := σ) (ε := ε) now space reads writes
  exact ⟨plan, hplan s, hmem⟩

/-! ## Look-ups that fail -/

/-- Look-ups after some of them came to fail: references with an error that may pass, credentials
and inventories with any error. -/
structure Loses (l l' : Lookups) : Prop where
  logins : l'.logins = l.logins
  flags : l'.flags = l.flags
  text : ∀ kind space key, l'.text kind space key = l.text kind space key ∨
    ∃ e, l'.text kind space key = .error e ∧ Error.lookupKind e = .transient
  credentials : ∀ space name, l'.credentials space name = l.credentials space name ∨
    ∃ e, l'.credentials space name = .error e
  databases : ∀ space, l'.databases space = l.databases space ∨
    ∃ e, l'.databases space = .error e

/-- The text of a reference in a namespace. -/
def textOf (l : Lookups) (space : String) (reference : Reference) : Except LookupError String :=
  reference.lookup >>= fun
    | .inline value => .ok value
    | .held kind key => l.text kind space key

theorem resolve_eq (l : Lookups) (space : String) (reference : Reference) :
    (l.selector : HostSelector σ).resolver.resolve space reference =
      Program.ofExcept (l.textOf space reference) := by
  unfold Resolver.resolve textOf
  cases reference.lookup with
  | error e => rfl
  | ok found =>
      cases found with
      | inline value => rfl
      | held kind key => rfl

/-- A database whose host cannot be found is on none. -/
theorem isOn_ok (l : Lookups) (space host : String) (database : DatabaseSpec) :
    ∃ on, ((l.planner : Planner Unit).isOn space host database : Program Unit Error Bool) () =
        .ok on () ∧ (on = true ↔ (l.selector : HostSelector Unit).hostOf space database.host
          database.hostCredentials () = .ok host ()) := by
  unfold Planner.isOn
  cases hrun : (l.selector : HostSelector Unit).hostOf space database.host
      database.hostCredentials () with
  | ok found u =>
      exact ⟨found = host, bind_of_ok (attempt_of_ok hrun), by simp⟩
  | error e u =>
      exact ⟨false, bind_of_ok (attempt_of_error hrun), by simp⟩

namespace Loses

variable {reference : Reference}

theorem textOf (h : l.Loses l') (space : String) (reference : Reference) :
    l'.textOf space reference = l.textOf space reference ∨
      ∃ e, l'.textOf space reference = .error e ∧ Error.lookupKind e = .transient := by
  unfold Lookups.textOf
  cases reference.lookup with
  | error e => exact .inl rfl
  | ok found =>
      cases found with
      | inline value => exact .inl rfl
      | held kind key => exact h.text kind space key

theorem resolve (h : l.Loses l') : Recedes ((l'.selector : HostSelector σ).resolve space field
    reference) ((l.selector : HostSelector σ).resolve space field reference) := by
  unfold HostSelector.resolve
  rw [resolve_eq, resolve_eq]
  exact recedes_mapError (recedes_ofExcept
    ((h.textOf space reference).imp_right fun ⟨e, he, _⟩ => ⟨e, he⟩))

/-- A reference without a value gives way to a default, but never one that cannot be read now. -/
theorem resolveOr (h : l.Loses l') {default : String} :
    Recedes ((l'.selector : HostSelector σ).resolveOr default space field reference)
      ((l.selector : HostSelector σ).resolveOr default space field reference) := by
  unfold HostSelector.resolveOr
  rw [resolve_eq, resolve_eq]
  rcases h.textOf space reference with hsame | ⟨e, he, htransient⟩
  · rw [hsame]
    exact recedes_refl _
  · rw [he]
    intro s value t hrun
    -- The default stands in for a missing value, and a missing value is no error that may pass.
    cases e with
    | noValue => cases htransient
    | notFound kind space name => cases hrun
    | unknownKey kind space name key => cases hrun
    | unreadable kind space name reason => cases hrun

theorem hostOf (h : l.Loses l') {host : Option Reference} {hostCredentials : Option String} :
    Recedes ((l'.selector : HostSelector σ).hostOf space host hostCredentials)
      ((l.selector : HostSelector σ).hostOf space host hostCredentials) := by
  refine recedes_bind (recedes_refl _) fun source => ?_
  cases source with
  | direct reference => exact h.resolve
  | credentials name =>
      refine recedes_bind (recedes_bind (recedes_ofExcept (h.credentials space name))
        fun found => recedes_refl _) fun spec => h.resolve

/-- The databases of an inventory that are found on a host were found there before. -/
theorem databasesOn (h : l.Loses l') (databases : List DatabaseSpec) :
    ∃ here here', ((l.planner : Planner Unit).databasesOn space host databases :
        Program Unit Error _) () = .ok here () ∧
      ((l'.planner : Planner Unit).databasesOn space host databases : Program Unit Error _) () =
        .ok here' () ∧ here'.Sublist here := by
  induction databases with
  | nil => exact ⟨[], [], rfl, rfl, .slnil⟩
  | cons database rest ih =>
      obtain ⟨here, here', hrun, hrun', hsub⟩ := ih
      obtain ⟨on, hon, hfound⟩ := l.isOn_ok space host database
      obtain ⟨on', hon', hfound'⟩ := l'.isOn_ok space host database
      refine ⟨if on then database :: here else here, if on' then database :: here' else here',
        ?_, ?_, ?_⟩
      · rw [Planner.databasesOn, bind_of_ok hon, bind_of_ok hrun]
        rfl
      · rw [Planner.databasesOn, bind_of_ok hon', bind_of_ok hrun']
        rfl
      · cases on' with
        | false =>
            cases on with
            | false => exact hsub
            | true => exact hsub.cons database
        | true =>
            rw [hfound.mpr (h.hostOf () host () (hfound'.mp rfl))]
            exact hsub.cons_cons database

theorem accessOn (h : l.Loses l') :
    (l'.planner : Planner σ).accessOn = (l.planner : Planner σ).accessOn := by
  funext intent host database schema
  unfold Planner.accessOn
  rw [show (l'.planner : Planner σ).flags = (l.planner : Planner σ).flags from h.flags]

theorem planOne (h : l.Loses l') : Recedes ((l'.planner : Planner σ).planOne space host intent)
    ((l.planner : Planner σ).planOne space host intent) := by
  unfold Planner.planOne
  rw [h.accessOn]
  exact recedes_bind h.resolve fun database => recedes_bind h.resolveOr fun schema =>
    recedes_refl _

theorem planAll (h : l.Loses l') {listed' : Option (List DatabaseSpec)}
    {accesses' : List PlannedAccess}
    (hnow : (l'.planner : Planner Unit).planAll space host none intent () =
      .ok (listed', accesses') ()) :
    ∃ listed accesses, (l.planner : Planner Unit).planAll space host none intent () =
      .ok (listed, accesses) () ∧ accesses'.Sublist accesses := by
  have hflags := congrArg (fun f : AccessFlags => f.allDatabases intent.privilege) h.flags
  cases hflag : l.flags.allDatabases intent.privilege with
  | false =>
      rw [Planner.planAll_of_not_allowed (hflags.trans hflag)] at hnow
      cases hnow
      exact ⟨none, [], by rw [Planner.planAll_of_not_allowed hflag]; rfl, .slnil⟩
  | true =>
      rw [Planner.planAll_of_allowed (hflags.trans hflag), h.accessOn] at hnow
      obtain ⟨databases, u, hlist, hrest⟩ := bind_eq_ok_iff.mp hnow
      obtain ⟨here, here', hon, hon', hsub⟩ :
          ∃ here here', ((l.planner : Planner Unit).databasesOn space host databases :
              Program Unit Error _) () = .ok here () ∧
            ((l'.planner : Planner Unit).databasesOn space host databases :
              Program Unit Error _) () = .ok here' () ∧ here'.Sublist here :=
        h.databasesOn databases
      rw [bind_of_ok hon'] at hrest
      cases hrest
      refine ⟨some databases, _, ?_, hsub.map _⟩
      have hbefore : (l.planner : Planner Unit).inventory space () = .ok databases u :=
        recedes_ofExcept (h.databases space) () databases u hlist
      rw [Planner.planAll_of_allowed hflag, bind_of_ok hbefore, bind_of_ok hon]
      rfl

/-- An intent that still comes to something comes to no more than before. -/
theorem contribution (h : l.Loses l') {accesses' : List PlannedAccess}
    (hnow : l'.contribution now space intent = .ok accesses') :
    ∃ accesses, l.contribution now space intent = .ok accesses ∧ accesses'.Sublist accesses := by
  obtain ⟨listed', hrun'⟩ := contribution_eq_ok_iff.mp hnow
  suffices hsuff : ∃ listed accesses,
      (l.planner : Planner Unit).planIntent now space none intent () = .ok (listed, accesses) () ∧
        accesses'.Sublist accesses by
    obtain ⟨listed, accesses, hrun, hsub⟩ := hsuff
    exact ⟨accesses, contribution_eq_ok_iff.mpr ⟨listed, hrun⟩, hsub⟩
  unfold Planner.planIntent at hrun' ⊢
  split at hrun'
  next hinactive =>
    cases hrun'
    rw [if_pos hinactive]
    exact ⟨none, [], rfl, .slnil⟩
  next hactive =>
    rw [if_neg hactive]
    obtain ⟨host, u, hhost', hrest'⟩ := bind_eq_ok_iff.mp hrun'
    have hhost : (l.planner : Planner Unit).selector.resolve space "host" intent.access.host () =
        .ok host u := h.resolve () host u hhost'
    rw [bind_of_ok hhost]
    split at hrest'
    next hall =>
      rw [if_pos hall]
      exact h.planAll hrest'
    next hall =>
      obtain ⟨access, v, hone, hend⟩ := bind_eq_ok_iff.mp hrest'
      cases hend
      rw [if_neg hall]
      exact ⟨none, [access], bind_of_ok (h.planOne u access _ hone), .refl _⟩

/-- A plan has no more accesses than before. -/
theorem planned_sublist (h : l.Loses l') (now : Instant) (space : String) (intents : List Intent) :
    (l'.planned now space intents).Sublist (l.planned now space intents) := by
  induction intents with
  | nil => exact .slnil
  | cons intent rest ih =>
      rw [planned_cons, planned_cons]
      refine List.Sublist.append ?_ ih
      cases hnow : l'.contribution now space intent with
      | error e => exact List.nil_sublist _
      | ok accesses' =>
          obtain ⟨accesses, hbefore, hsub⟩ := h.contribution hnow
          rw [hbefore]
          exact hsub

end Loses

end Lookups

end PgSteward
