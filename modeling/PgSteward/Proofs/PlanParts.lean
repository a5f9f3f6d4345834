import PgSteward.Proofs.GrantRuns
import PgSteward.Proofs.NameMaps

/-!
# Plans and their parts

An intent is planned after those before it, with the plan so far and with the inventory if one of
them has listed it.  Where the inventory of a namespace always answers the same, neither matters:
the intent comes to what it comes to first of all (`meets_planIntent`), and so a plan is the plans
of its intents put together (`planFrom_eq`).

The plan for one intent is empty, or one error, or accesses.  Planned accesses are kept by the key
of their database, and no key has an empty list (`Plan.WellKept`).  `plan_separates` has it all.
-/

namespace PgSteward

open Program

/-! ## Plans put together -/

namespace Plan

/-- Two plans as one, with what the first has before what the second has. -/
def append (p q : Plan) : Plan where
  access := NameMap.append p.access q.access
  errors := p.errors ++ q.errors

/-- Planned accesses may be put to a plan as a plan of their own. -/
theorem append_add (p : Plan) (accesses : List PlannedAccess) :
    p.append (({} : Plan).add accesses) = p.add accesses := by
  have haccess : NameMap.append p.access (({} : Plan).add accesses).access =
      (p.add accesses).access := by
    refine NameMap.ext_getD (fun name => ?_) fun name => ?_
    · rw [NameMap.mem_append, add, add, NameMap.mem_foldl_push, NameMap.mem_foldl_push]
      simp
    · rw [NameMap.getD_append, add, add, NameMap.getD_foldl_push, NameMap.getD_foldl_push]
      simp
  rw [append, haccess, add, add, List.append_nil]

/-- An error may be put to a plan as a plan of its own. -/
theorem append_fail (p : Plan) (e : Error) : p.append (({} : Plan).fail e) = p.fail e := by
  have haccess : NameMap.append p.access (({} : Plan).fail e).access = p.access := by
    refine NameMap.ext_getD (fun name => ?_) fun name => ?_
    · rw [NameMap.mem_append, fail]
      simp
    · rw [NameMap.getD_append, fail]
      simp
  rw [append, haccess, fail, fail, List.nil_append]

end Plan

/-! ## How a plan keeps its accesses -/

/-- Whether accesses may be the list of a key, given what is allowed. -/
structure PlannedAccess.Listed (flags : AccessFlags) (key : String)
    (accesses : List PlannedAccess) : Prop where
  nonempty : accesses ≠ []
  /-- The key is that of their database on their host. -/
  keyed : ∀ a ∈ accesses, key = accessKey a.host a.database
  /-- The extended privileges are given to write, and only if they are allowed. -/
  extended : ∀ a ∈ accesses,
    a.extended = true → a.privilege = .write ∧ flags.extendedWrite = true

/-- Whether the keys of a plan have the lists that they may have. -/
def Plan.WellKept (flags : AccessFlags) (plan : Plan) : Prop :=
  ∀ (key : String) (accesses : List PlannedAccess), plan.access[key]? = some accesses →
    PlannedAccess.Listed flags key accesses

namespace Plan.WellKept

variable {flags : AccessFlags} {plan : Plan}

theorem empty : WellKept flags {} := fun key accesses h => by simp at h

/-- An access comes to the end of the list of its key. -/
theorem push (h : plan.WellKept flags) {a : PlannedAccess}
    (ha : a.extended = true → a.privilege = .write ∧ flags.extendedWrite = true) :
    WellKept flags { plan with access := NameMap.push plan.access a.key a } := by
  have hbefore : ∀ b ∈ plan.access.getD a.key [], a.key = accessKey b.host b.database ∧
      (b.extended = true → b.privilege = .write ∧ flags.extendedWrite = true) := by
    intro b hb
    rw [Std.ExtTreeMap.getD_eq_getD_getElem?] at hb
    cases hget : plan.access[a.key]? with
    | none => simp [hget] at hb
    | some accesses =>
        rw [hget] at hb
        exact ⟨(h _ _ hget).keyed b hb, (h _ _ hget).extended b hb⟩
  intro key accesses hget
  rw [NameMap.push, Std.ExtTreeMap.getElem?_insert] at hget
  split at hget
  next hkey =>
    obtain rfl : a.key = key := Std.LawfulEqCmp.compare_eq_iff_eq.mp hkey
    cases hget
    refine ⟨List.append_ne_nil_of_right_ne_nil _ (List.cons_ne_nil a []), fun b hb => ?_,
      fun b hb => ?_⟩
    · rcases List.mem_append.mp hb with hb | hb
      · exact (hbefore b hb).1
      · rw [List.mem_singleton.mp hb]
        rfl
    · rcases List.mem_append.mp hb with hb | hb
      · exact (hbefore b hb).2
      · rw [List.mem_singleton.mp hb]
        exact ha
  next => exact h key accesses hget

theorem add (h : plan.WellKept flags) {accesses : List PlannedAccess}
    (haccesses : ∀ a ∈ accesses,
      a.extended = true → a.privilege = .write ∧ flags.extendedWrite = true) :
    (plan.add accesses).WellKept flags := by
  induction accesses generalizing plan with
  | nil => exact h
  | cons a rest ih =>
      exact ih (h.push (haccesses a (List.mem_cons_self ..))) fun b hb =>
        haccesses b (List.mem_cons_of_mem _ hb)

end Plan.WellKept

/-! ## Intents after one another -/

namespace Planner

variable {σ ε : Type} {p : Planner σ} {now : Instant} {space host : String} {intent : Intent}
  {answer : Except Error (List DatabaseSpec)} {listed : Option (List DatabaseSpec)} {s t : σ}

/-- Whether the inventory of a namespace always answers the same. -/
def Answers (p : Planner σ) (space : String) (answer : Except Error (List DatabaseSpec)) : Prop :=
  p.inventory space = Program.ofExcept answer

/-- Whether an inventory that is handed on is the one that is answered. -/
def HandsOn (answer : Except Error (List DatabaseSpec)) (listed : Option (List DatabaseSpec)) :
    Prop :=
  ∀ databases, listed = some databases → answer = .ok databases

theorem handsOn_none : HandsOn answer none := fun _ h => by cases h

/-- An intent that is not active comes to nothing. -/
theorem planIntent_of_inactive (hactive : intent.access.isActive now = false) :
    p.planIntent now space listed intent = pure (listed, []) := by
  unfold planIntent
  rw [hactive]
  rfl

theorem planIntent_of_all (hactive : intent.access.isActive now = true)
    (hall : intent.access.allDatabases = true) :
    p.planIntent now space listed intent = (do
      let host ← p.selector.resolve space "host" intent.access.host
      p.planAll space host listed intent) := by
  unfold planIntent
  rw [hactive, hall]
  rfl

theorem planIntent_of_one (hactive : intent.access.isActive now = true)
    (hall : intent.access.allDatabases = false) :
    p.planIntent now space listed intent = (do
      let host ← p.selector.resolve space "host" intent.access.host
      let access ← p.planOne space host intent
      return (listed, [access])) := by
  unfold planIntent
  rw [hactive, hall]
  rfl

/-- Without permission an intent on all databases comes to nothing. -/
theorem planAll_of_not_allowed (hflag : p.flags.allDatabases intent.privilege = false) :
    p.planAll space host listed intent = pure (listed, []) := by
  unfold planAll
  rw [hflag]
  rfl

theorem planAll_of_allowed (hflag : p.flags.allDatabases intent.privilege = true) :
    p.planAll space host none intent = (do
      let databases ← p.inventory space
      let here ← p.databasesOn space host databases
      return (some databases, here.map fun d => p.accessOn intent host d.name d.name)) := by
  unfold planAll
  rw [hflag]
  rfl

/-- Once the inventory is known, an intent on all databases may as well list it. -/
theorem planAll_listed {databases : List DatabaseSpec}
    (hflag : p.flags.allDatabases intent.privilege = true) (h : p.Answers space (.ok databases)) :
    p.planAll space host (some databases) intent = p.planAll space host none intent := by
  unfold planAll
  rw [h, hflag]
  rfl

/-- An intent comes to what it comes to first of all, and hands on the inventory if it knows it. -/
theorem meets_planAll (h : p.Answers space answer) (hlisted : HandsOn answer listed) (s : σ) :
    (p.planAll space host listed intent).Meets s
      (fun found t => HandsOn answer found.1 ∧
        ∃ handed, p.planAll space host none intent s = .ok (handed, found.2) t)
      (fun e t => p.planAll space host none intent s = .error e t) := by
  cases hflag : p.flags.allDatabases intent.privilege with
  | false =>
      rw [planAll_of_not_allowed hflag, planAll_of_not_allowed hflag]
      exact meets_of_ok (run_pure _ s) ⟨hlisted, none, rfl⟩
  | true =>
      have hnone : p.planAll space host listed intent = p.planAll space host none intent := by
        cases listed with
        | none => rfl
        | some databases => exact planAll_listed hflag (hlisted databases rfl ▸ h)
      rw [hnone]
      cases hrun : p.planAll space host none intent s with
      | error e t => exact meets_of_error hrun rfl
      | ok found t =>
          refine meets_of_ok hrun ⟨?_, found.1, rfl⟩
          rw [planAll_of_allowed hflag, h] at hrun
          obtain ⟨databases, u, hlist, hrest⟩ := bind_eq_ok_iff.mp hrun
          obtain ⟨here, v, -, hend⟩ := bind_eq_ok_iff.mp hrest
          cases hend
          rintro _ ⟨⟩
          exact (ofExcept_eq_ok_iff.mp hlist).1

/-- An intent comes to what it comes to first of all, and hands on the inventory if it knows it. -/
theorem meets_planIntent (h : p.Answers space answer) (hlisted : HandsOn answer listed) (s : σ) :
    (p.planIntent now space listed intent).Meets s
      (fun found t => HandsOn answer found.1 ∧
        ∃ handed, p.planIntent now space none intent s = .ok (handed, found.2) t)
      (fun e t => p.planIntent now space none intent s = .error e t) := by
  cases hactive : intent.access.isActive now with
  | false =>
      rw [planIntent_of_inactive hactive, planIntent_of_inactive hactive]
      exact meets_of_ok (run_pure _ s) ⟨hlisted, none, rfl⟩
  | true =>
      cases hall : intent.access.allDatabases with
      | true =>
          rw [planIntent_of_all hactive hall, planIntent_of_all hactive hall]
          cases hhost : p.selector.resolve space "host" intent.access.host s with
          | error e t => exact meets_of_error (bind_of_error hhost) (bind_of_error hhost)
          | ok host t =>
              rw [Meets, bind_of_ok hhost, bind_of_ok hhost]
              exact meets_planAll h hlisted t
      | false =>
          rw [planIntent_of_one hactive hall, planIntent_of_one hactive hall]
          cases hhost : p.selector.resolve space "host" intent.access.host s with
          | error e t => exact meets_of_error (bind_of_error hhost) (bind_of_error hhost)
          | ok host t =>
              rw [Meets, bind_of_ok hhost, bind_of_ok hhost]
              cases hone : p.planOne space host intent t with
              | error e u => exact meets_of_error (bind_of_error hone) (bind_of_error hone)
              | ok access u =>
                  exact meets_of_ok (bind_of_ok hone) ⟨hlisted, none, bind_of_ok hone⟩

/-- What an intent on all databases comes to are accesses for the intent. -/
theorem accesses_of_planAll {handed : Option (List DatabaseSpec)} {accesses : List PlannedAccess}
    (hrun : p.planAll space host none intent s = .ok (handed, accesses) t) :
    ∀ a ∈ accesses, ∃ host database schema, a = p.accessOn intent host database schema := by
  cases hflag : p.flags.allDatabases intent.privilege with
  | false =>
      rw [planAll_of_not_allowed hflag] at hrun
      cases hrun
      intro a ha
      cases ha
  | true =>
      rw [planAll_of_allowed hflag] at hrun
      obtain ⟨databases, u, -, hrest⟩ := bind_eq_ok_iff.mp hrun
      obtain ⟨here, v, -, hend⟩ := bind_eq_ok_iff.mp hrest
      cases hend
      intro a ha
      obtain ⟨database, -, rfl⟩ := List.mem_map.mp ha
      exact ⟨host, database.name, database.name, rfl⟩

/-- What an intent on one database comes to is an access for the intent. -/
theorem access_of_planOne {access : PlannedAccess}
    (hrun : p.planOne space host intent s = .ok access t) :
    ∃ host database schema, access = p.accessOn intent host database schema := by
  obtain ⟨database, u, -, hrest⟩ := bind_eq_ok_iff.mp hrun
  obtain ⟨schema, v, -, hend⟩ := bind_eq_ok_iff.mp hrest
  cases hend
  exact ⟨host, database, schema, rfl⟩

/-- What an intent comes to are accesses for the intent. -/
theorem accesses_of_planIntent {handed : Option (List DatabaseSpec)}
    {accesses : List PlannedAccess}
    (hrun : p.planIntent now space none intent s = .ok (handed, accesses) t) :
    ∀ a ∈ accesses, ∃ host database schema, a = p.accessOn intent host database schema := by
  cases hactive : intent.access.isActive now with
  | false =>
      rw [planIntent_of_inactive hactive] at hrun
      cases hrun
      intro a ha
      cases ha
  | true =>
      cases hall : intent.access.allDatabases with
      | true =>
          rw [planIntent_of_all hactive hall] at hrun
          obtain ⟨host, u, -, hrest⟩ := bind_eq_ok_iff.mp hrun
          exact accesses_of_planAll hrest
      | false =>
          rw [planIntent_of_one hactive hall] at hrun
          obtain ⟨host, u, -, hrest⟩ := bind_eq_ok_iff.mp hrun
          obtain ⟨access, v, hone, hend⟩ := bind_eq_ok_iff.mp hrest
          cases hend
          intro a ha
          rw [List.mem_singleton.mp ha]
          exact access_of_planOne hone

/-! ## Plans of several intents -/

/-- A plan goes on with what an intent comes to. -/
theorem planFrom_of_ok {handed : Option (List DatabaseSpec)} {accesses : List PlannedAccess}
    (hrun : p.planIntent now space listed intent s = .ok (handed, accesses) t) (plan : Plan)
    (rest : List Intent) :
    (p.planFrom now space plan listed (intent :: rest) : Program σ ε Plan) s =
      p.planFrom now space (plan.add accesses) handed rest t := by
  rw [planFrom, bind_of_ok (attempt_of_ok hrun)]

/-- A plan goes on without an intent that comes to nothing. -/
theorem planFrom_of_error {e : Error}
    (hrun : p.planIntent now space listed intent s = .error e t) (plan : Plan)
    (rest : List Intent) :
    (p.planFrom now space plan listed (intent :: rest) : Program σ ε Plan) s =
      p.planFrom now space (plan.fail e) listed rest t := by
  rw [planFrom, bind_of_ok (attempt_of_error hrun)]

/-- The plan for one intent. -/
def planAlone (p : Planner σ) (now : Instant) (space : String) (intent : Intent) :
    Program σ ε Plan :=
  p.planFrom now space {} none [intent]

theorem planAlone_of_ok {handed : Option (List DatabaseSpec)} {accesses : List PlannedAccess}
    (hrun : p.planIntent now space none intent s = .ok (handed, accesses) t) :
    (p.planAlone now space intent : Program σ ε Plan) s = .ok (({} : Plan).add accesses) t :=
  planFrom_of_ok hrun {} []

theorem planAlone_of_error {e : Error}
    (hrun : p.planIntent now space none intent s = .error e t) :
    (p.planAlone now space intent : Program σ ε Plan) s = .ok (({} : Plan).fail e) t :=
  planFrom_of_error hrun {} []

/-- The intents of a plan may be planned alone, and their plans put together. -/
theorem planFrom_eq (h : p.Answers space answer) (hlisted : HandsOn answer listed)
    (intents : List Intent) (plan : Plan) :
    (p.planFrom now space plan listed intents : Program σ ε Plan) = (do
      let parts ← intents.mapM (p.planAlone now space)
      return parts.foldl Plan.append plan) := by
  induction intents generalizing plan listed with
  | nil => rfl
  | cons intent rest ih =>
      funext s
      rw [List.mapM_cons, bind_assoc]
      cases hrun : p.planIntent now space listed intent s with
      | ok found t =>
          obtain ⟨hhanded, handed, hfirst⟩ := (meets_planIntent h hlisted s).of_ok hrun
          rw [planFrom_of_ok hrun, ih hhanded, bind_of_ok (planAlone_of_ok hfirst), bind_assoc]
          simp only [pure_bind, List.foldl_cons, Plan.append_add]
      | error e t =>
          have hfirst : p.planIntent now space none intent s = .error e t :=
            (meets_planIntent h hlisted s).of_error hrun
          rw [planFrom_of_error hrun, ih hlisted, bind_of_ok (planAlone_of_error hfirst),
            bind_assoc]
          simp only [pure_bind, List.foldl_cons, Plan.append_fail]

/-- Accesses are given the extended privileges for intents that ask for them. -/
theorem extended_of_accessOn {host database schema : String}
    (hintent : intent.extended = true → intent.privilege = .write)
    (h : (p.accessOn intent host database schema).extended = true) :
    (p.accessOn intent host database schema).privilege = .write ∧
      p.flags.extendedWrite = true := by
  obtain ⟨hasked, hallowed⟩ := Bool.and_eq_true_iff.mp h
  exact ⟨hintent hasked, hallowed⟩

/-- A plan is always made, and keeps its accesses well. -/
theorem planFrom_wellKept (h : p.Answers space answer) {intents : List Intent}
    (hintents : ∀ intent ∈ intents, intent.extended = true → intent.privilege = .write)
    {plan : Plan} (hplan : plan.WellKept p.flags) (hlisted : HandsOn answer listed) (s : σ) :
    ∃ made t, (p.planFrom now space plan listed intents : Program σ ε Plan) s = .ok made t ∧
      made.WellKept p.flags := by
  induction intents generalizing plan listed s with
  | nil => exact ⟨plan, s, rfl, hplan⟩
  | cons intent rest ih =>
      have hrest := fun other hother => hintents other (List.mem_cons_of_mem _ hother)
      cases hrun : p.planIntent now space listed intent s with
      | ok found t =>
          obtain ⟨hhanded, handed, hfirst⟩ := (meets_planIntent h hlisted s).of_ok hrun
          have hadded : (plan.add found.2).WellKept p.flags := by
            refine hplan.add fun a ha => ?_
            obtain ⟨host, database, schema, rfl⟩ := accesses_of_planIntent hfirst a ha
            exact extended_of_accessOn (hintents intent (List.mem_cons_self ..))
          rw [planFrom_of_ok hrun]
          exact ih hrest hadded hhanded t
      | error e t =>
          have hfailed : (plan.fail e).WellKept p.flags := hplan
          rw [planFrom_of_error hrun]
          exact ih hrest hfailed hlisted t

/-! ## Plans and the plans of their intents -/

/-- What the plan for one intent is. -/
structure Contributes (p : Planner σ) (now : Instant) (space : String) (intent : Intent)
    (plan : Program σ ε Plan) : Prop where
  /-- It is empty if the intent is not active. -/
  inactive : intent.access.isActive now = false → plan = pure {}
  /-- It is empty if the intent is on all databases without permission, and its host is found. -/
  disabled : intent.access.isActive now = true → intent.access.allDatabases = true →
    p.flags.allDatabases intent.privilege = false → ∀ s host t,
      p.selector.resolve space "host" intent.access.host s = .ok host t → plan s = .ok {} t
  /-- It is always made, and has either no errors or one error and no accesses. -/
  otherwise : ∀ s, ∃ made t, plan s = .ok made t ∧
    (made.errors = [] ∨ ∃ e, made.errors = [e] ∧ made.access = ∅)

/-- What a plan has to do with the plans for its intents alone. -/
structure Separates (p : Planner σ) (now : Instant) (space : String) (reads : List AccessIntent)
    (writes : List WriteIntent) (plan : Program σ ε Plan) : Prop where
  /-- It is they, put together in the order of the intents. -/
  parts : plan = (do
    let readPlans ← reads.mapM fun a => p.plan now space [a] []
    let writePlans ← writes.mapM fun w => p.plan now space [] [w]
    return (readPlans ++ writePlans).foldl Plan.append {})
  reads : ∀ a ∈ reads, p.Contributes (ε := ε) now space ⟨a, .read, false⟩ (p.plan now space [a] [])
  writes : ∀ w ∈ writes, p.Contributes (ε := ε) now space ⟨w.access, .write, w.extended⟩
    (p.plan now space [] [w])
  /-- It is always made, and keeps its accesses well. -/
  wellKept : ∀ s, ∃ made t, plan s = .ok made t ∧ made.WellKept p.flags

theorem contributes_planAlone (p : Planner σ) (now : Instant) (space : String) (intent : Intent) :
    p.Contributes now space intent (p.planAlone now space intent : Program σ ε Plan) where
  inactive := fun hactive => by
    funext s
    have hrun : p.planIntent now space none intent s = .ok (none, []) s := by
      rw [planIntent_of_inactive hactive, run_pure]
    exact planAlone_of_ok hrun
  disabled := fun hactive hall hflag s host t hhost => by
    have hrun : p.planIntent now space none intent s = .ok (none, []) t := by
      rw [planIntent_of_all hactive hall, bind_of_ok hhost, planAll_of_not_allowed hflag, run_pure]
    exact planAlone_of_ok hrun
  otherwise := fun s => by
    cases hrun : p.planIntent now space none intent s with
    | ok found t => exact ⟨_, t, planAlone_of_ok hrun, .inl rfl⟩
    | error e t => exact ⟨_, t, planAlone_of_error hrun, .inr ⟨e, rfl, rfl⟩⟩

/-- Where the inventory of the namespace always answers the same, a plan is the plans for its
intents alone, put together. -/
theorem plan_separates (p : Planner σ) (now : Instant) (space : String)
    (reads : List AccessIntent) (writes : List WriteIntent)
    (answer : Except Error (List DatabaseSpec)) (h : p.inventory space = Program.ofExcept answer) :
    p.Separates now space reads writes (p.plan now space reads writes : Program σ ε Plan) where
  parts := by
    rw [plan, planFrom_eq h handsOn_none, Intent.ofUser, List.mapM_append, List.mapM_map,
      List.mapM_map]
    simp only [bind_assoc, pure_bind]
    rfl
  reads := fun a _ => contributes_planAlone p now space ⟨a, .read, false⟩
  writes := fun w _ => contributes_planAlone p now space ⟨w.access, .write, w.extended⟩
  wellKept := fun s => by
    refine planFrom_wellKept h (fun intent hintent => ?_) Plan.WellKept.empty handsOn_none s
    rcases List.mem_append.mp hintent with hread | hwrite
    · obtain ⟨a, -, rfl⟩ := List.mem_map.mp hread
      exact fun hextended => by cases hextended
    · obtain ⟨w, -, rfl⟩ := List.mem_map.mp hwrite
      exact fun _ => rfl

end Planner

/-- The databases of a shop, one on each of two hosts. -/
def shopDatabases : List DatabaseSpec :=
  [{ name := "orders", host := some { value := "db:5432" } },
    { name := "audit", host := some { value := "logs:5432" } }]

/-- Plans for the shop.  There is no object to look up. -/
def shopPlanner : Planner Unit where
  selector :=
    { logins := ∅
      credentials := fun _ _ => pure none
      resolver := { read := fun kind space key => throw (.notFound kind space key.name) } }
  inventory := fun space => Program.ofExcept <|
    if space = "shop" then .ok shopDatabases else .error (.invalid "no such shop")
  flags := { allDatabasesRead := true }

/-- An intent that names no host, before one on all databases of a host. -/
def shopReads : List AccessIntent :=
  [{ ordersIntent with host := {} }, { ordersIntent with allDatabases := true }]

/-- An intent on all databases of a host is planned beside one that names no host. -/
theorem plan_of_shop_separates :
    (∃ made, (shopPlanner.plan writeCall.now "shop" shopReads [] : Program Unit Error Plan) () =
        .ok made () ∧ made.access.keys = ["db:5432/orders"] ∧ made.errors.length = 1) ∧
      shopPlanner.Separates writeCall.now "shop" shopReads []
        (shopPlanner.plan writeCall.now "shop" shopReads [] : Program Unit Error Plan) :=
  ⟨⟨_, rfl, by decide +kernel, by decide +kernel⟩,
    Planner.plan_separates shopPlanner writeCall.now "shop" shopReads [] (.ok shopDatabases) rfl⟩

end PgSteward
