import PgSteward.Proofs.IndependentHosts
import PgSteward.Proofs.PlanParts

/-!
# Errors of parts, collected

Programs that are gathered run one after the other, and come to the errors among what they come to
(`Program.gather_eq_outcomes`).  Errors that are put together are put together from single ones, if
each of them is (`Error.isFlat_of_ofAll`), and report what they report (`Error.reports_ofAll`).

A plan collects errors as well, by handing on what it has so far.  It has the errors of its intents,
in their order (`Planner.planFrom_eq_planEach`).
-/

namespace PgSteward

open Program

/-! ## Results one after the other -/

namespace Program

variable {σ ε ε' α : Type}

theorem outcome_of_ok {p : Program σ ε α} {s t : σ} {a : α} (h : p s = .ok a t) :
    p.outcome s = (.ok a, t) := by
  rw [outcome, h]

theorem outcome_of_error {p : Program σ ε α} {s t : σ} {e : ε} (h : p s = .error e t) :
    p.outcome s = (.error e, t) := by
  rw [outcome, h]

theorem outcome_bind_of_ok {β : Type} {p : Program σ ε α} {f : α → Program σ ε β} {s t : σ} {a : α}
    (h : p s = .ok a t) : (p >>= f).outcome s = (f a).outcome t := by
  rw [outcome, bind_of_ok h, outcome]

/-- What programs come to that are run one after the other, and what they leave. -/
def outcomes : List (Program σ ε α) → σ → List (Except ε α) × σ
  | [], s => ([], s)
  | p :: rest, s =>
      let first := p.outcome s
      let others := outcomes rest first.2
      (first.1 :: others.1, others.2)

/-- The error of a result, if it is one. -/
def errorOf : Except ε α → Option ε
  | .ok _ => none
  | .error e => some e

theorem errorOf_outcome_mapError (f : ε → ε') (p : Program σ ε α) (s : σ) :
    errorOf ((mapError f p).outcome s).1 = (errorOf (p.outcome s).1).map f := by
  cases h : p s <;> simp [outcome, mapError, h, errorOf]

theorem errorOf_eq_none_iff {r : Except ε Unit} : errorOf r = none ↔ r = .ok () := by
  cases r <;> simp [errorOf]

theorem eq_error_of_mem {r : Except ε Unit} {e : ε} (h : e ∈ (errorOf r).toList) :
    r = .error e := by
  cases r with
  | ok u => cases h
  | error e' => rw [List.mem_singleton.mp h]

/-- The errors among some results. -/
def errorsOf (results : List (Except ε α)) : List ε := results.filterMap errorOf

theorem outcomes_append (ps qs : List (Program σ ε α)) (s : σ) :
    outcomes (ps ++ qs) s =
      ((outcomes ps s).1 ++ (outcomes qs (outcomes ps s).2).1, (outcomes qs (outcomes ps s).2).2) := by
  induction ps generalizing s with
  | nil => rfl
  | cons p rest ih => simp only [List.cons_append, outcomes, ih]

/-- To gather programs is to run them one after the other, and to collect the errors. -/
theorem gather_eq_outcomes (ps : List (Program σ ε Unit)) (s : σ) :
    (gather ps : Program σ ε' (List ε)) s =
      .ok (errorsOf (outcomes ps s).1) (outcomes ps s).2 := by
  induction ps generalizing s with
  | nil => rfl
  | cons p rest ih =>
      cases hp : p s with
      | ok u t =>
          simp only [gather, hp, ih, outcomes, outcome]
          rfl
      | error e t =>
          simp only [gather, hp, ih, outcomes, outcome]
          rfl

end Program

/-! ## Errors put together -/

namespace Error

/-- Whether an error is not put together from others. -/
def IsSingle (e : Error) : Prop := ∀ errors, e ≠ .multiple errors

/-- Whether an error is put together from single ones. -/
def IsFlat (e : Error) : Prop := ∀ part ∈ e.parts, part.IsSingle

/-- What comes of some errors. -/
def ofAll (errors : List Error) : Except Error Unit :=
  match combine errors with
  | none => .ok ()
  | some e => .error e

/-- The errors that a result reports. -/
def reports : Except Error Unit → List Error
  | .ok () => []
  | .error e => e.parts

theorem IsSingle.parts {e : Error} (h : e.IsSingle) : e.parts = [e] := by
  cases e with
  | multiple errors => exact absurd rfl (h errors)
  | _ => rfl

theorem IsSingle.isFlat {e : Error} (h : e.IsSingle) : e.IsFlat := by
  intro part hpart
  rw [h.parts, List.mem_singleton] at hpart
  rwa [hpart]

theorem isSingle_sql (e : SqlError) : (sql e).IsSingle := by
  intro errors he
  cases he

theorem isSingle_of_mem_map_sql {e : Error} {errors : List SqlError} (h : e ∈ errors.map sql) :
    e.IsSingle := by
  obtain ⟨e', -, rfl⟩ := List.mem_map.mp h
  exact isSingle_sql e'

theorem ofAll_eq_ok_iff {errors : List Error} : ofAll errors = .ok () ↔ errors = [] := by
  rw [← combine_eq_none_iff, ofAll]
  cases combine errors <;> simp

/-- What comes of some errors reports all that they report. -/
theorem reports_ofAll (errors : List Error) : reports (ofAll errors) = errors.flatMap parts := by
  unfold ofAll
  cases h : combine errors with
  | none =>
      rw [combine_eq_none_iff.mp h]
      rfl
  | some e => exact parts_of_combine h

/-- What comes of flat errors is flat. -/
theorem isFlat_of_ofAll {errors : List Error} {e : Error} (h : ofAll errors = .error e)
    (hflat : ∀ e ∈ errors, e.IsFlat) : e.IsFlat := by
  intro part hpart
  have hreports : part ∈ reports (ofAll errors) := by rwa [h]
  rw [reports_ofAll] at hreports
  obtain ⟨e', he', hmem⟩ := List.mem_flatMap.mp hreports
  exact hflat e' he' part hmem

theorem flatMap_parts_of_single {errors : List Error} (h : ∀ e ∈ errors, e.IsSingle) :
    errors.flatMap parts = errors := by
  rw [List.flatMap_congr fun e he => (h e he).parts, List.flatMap_singleton']

/-- The errors among results report what the results report. -/
theorem flatMap_errorsOf (results : List (Except Error Unit)) :
    (errorsOf results).flatMap parts = results.flatMap reports := by
  induction results with
  | nil => rfl
  | cons r rest ih =>
      rw [List.flatMap_cons, ← ih]
      cases r with
      | ok u => rfl
      | error e => rfl

theorem flatMap_errorOf (r : Except Error Unit) : (errorOf r).toList.flatMap parts = reports r := by
  cases r with
  | ok u => rfl
  | error e => exact List.append_nil _

theorem outcome_failIf_combine {σ : Type} (errors : List Error) (s : σ) :
    (failIf (combine errors) : Program σ Error Unit).outcome s = (ofAll errors, s) := by
  unfold ofAll
  cases combine errors with
  | none => rfl
  | some e => rfl

/-- A program on a session that collects errors comes to all of them, unless it fails itself. -/
theorem outcome_mapError_failIf {σ : Type} (p : Program σ SqlError (List SqlError)) (s : σ) :
    (do
      let errors ← mapError sql p
      failIf (combine (errors.map sql)) : Program σ Error Unit).outcome s =
      (match (p.outcome s).1 with
        | .ok errors => ofAll (errors.map sql)
        | .error e => .error (sql e), (p.outcome s).2) := by
  cases hp : p s with
  | ok errors t =>
      rw [outcome_bind_of_ok (mapError_eq_ok_iff.mpr hp), outcome_of_ok hp]
      exact outcome_failIf_combine _ t
  | error e t =>
      have hrun : mapError sql p s = .error (sql e) t := mapError_eq_error_iff.mpr ⟨e, hp, rfl⟩
      rw [outcome_of_error (bind_of_error hrun), outcome_of_error hp]

/-- Two programs that are both run come to their errors together. -/
theorem outcome_gather_pair {σ : Type} (p q : Program σ Error Unit) (s : σ) :
    (do
      let errors ← gather [p, q]
      failIf (combine errors) : Program σ Error Unit).outcome s =
      (ofAll ((errorOf (p.outcome s).1).toList ++ (errorOf (q.outcome (p.outcome s).2).1).toList),
        (q.outcome (p.outcome s).2).2) := by
  have hgather : (gather [p, q] : Program σ Error (List Error)) s = _ :=
    gather_eq_outcomes [p, q] s
  rw [outcome_bind_of_ok hgather, outcome_failIf_combine]
  simp only [outcomes, errorsOf]
  cases (p.outcome s).1 <;> cases (q.outcome (p.outcome s).2).1 <;> rfl

end Error

/-! ## Errors of a plan -/

namespace HostSelector

variable {σ : Type} {sel : HostSelector σ} {space field : String} {reference : Reference} {s t : σ}
  {e : Error}

theorem isSingle_of_resolve (h : sel.resolve space field reference s = .error e t) :
    e.IsSingle := by
  obtain ⟨e', -, rfl⟩ := mapError_eq_error_iff.mp h
  intro errors he
  cases he

theorem isSingle_of_resolveOr {default : String}
    (h : sel.resolveOr default space field reference s = .error e t) : e.IsSingle := by
  unfold resolveOr at h
  cases hread : sel.resolver.resolve space reference s with
  | ok value u =>
      rw [bind_of_ok (attempt_of_ok hread)] at h
      cases h
  | error e' u =>
      rw [bind_of_ok (attempt_of_error hread)] at h
      cases e' with
      | noValue => cases h
      | _ =>
          cases h
          intro errors he
          cases he

end HostSelector

namespace Planner

variable {σ ε : Type} {p : Planner σ} {now : Instant} {space host : String} {intent : Intent}
  {listed : Option (List DatabaseSpec)} {s t : σ} {e : Error}

/-- What intents come to that are planned one after the other, and what is left. -/
def planEach (p : Planner σ) (now : Instant) (space : String) :
    Option (List DatabaseSpec) → List Intent → σ → List (Except Error (List PlannedAccess)) × σ
  | _, [], s => ([], s)
  | listed, intent :: rest, s =>
      match p.planIntent now space listed intent s with
      | .ok (handed, accesses) t =>
          let others := planEach p now space handed rest t
          (.ok accesses :: others.1, others.2)
      | .error e t =>
          let others := planEach p now space listed rest t
          (.error e :: others.1, others.2)

/-- A plan has the errors of its intents, in their order. -/
theorem planFrom_eq_planEach (intents : List Intent) (plan : Plan) (s : σ) :
    ∃ made, (p.planFrom now space plan listed intents : Program σ ε Plan) s =
        .ok made (p.planEach now space listed intents s).2 ∧
      made.errors = plan.errors ++ errorsOf (p.planEach now space listed intents s).1 := by
  induction intents generalizing plan listed s with
  | nil => exact ⟨plan, rfl, (List.append_nil _).symm⟩
  | cons intent rest ih =>
      cases hrun : p.planIntent now space listed intent s with
      | ok found t =>
          rw [planFrom_of_ok hrun, planEach, hrun]
          exact ih (plan.add found.2) t
      | error e t =>
          rw [planFrom_of_error hrun, planEach, hrun]
          obtain ⟨made, hmade, herrors⟩ := ih (plan.fail e) t
          refine ⟨made, hmade, herrors.trans ?_⟩
          rw [Plan.fail, List.append_assoc]
          rfl

theorem plan_eq_planEach (p : Planner σ) (now : Instant) (space : String)
    (reads : List AccessIntent) (writes : List WriteIntent) (s : σ) :
    ∃ made, (p.plan now space reads writes : Program σ ε Plan) s =
        .ok made (p.planEach now space none (Intent.ofUser reads writes) s).2 ∧
      made.errors = errorsOf (p.planEach now space none (Intent.ofUser reads writes) s).1 :=
  planFrom_eq_planEach (Intent.ofUser reads writes) {} s

/-- To look for the databases on a host never fails. -/
theorem databasesOn_ok (databases : List DatabaseSpec) (s : σ) :
    ∃ here t, (p.databasesOn space host databases : Program σ ε _) s = .ok here t := by
  induction databases generalizing s with
  | nil => exact ⟨[], s, rfl⟩
  | cons database rest ih =>
      obtain ⟨on, u, hon⟩ : ∃ on u, (p.isOn space host database : Program σ ε Bool) s =
          .ok on u := by
        unfold isOn
        cases hrun : p.selector.hostOf space database.host database.hostCredentials s with
        | ok found u => exact ⟨_, u, bind_of_ok (attempt_of_ok hrun)⟩
        | error e u => exact ⟨_, u, bind_of_ok (attempt_of_error hrun)⟩
      obtain ⟨others, v, hothers⟩ := ih u
      refine ⟨if on then database :: others else others, v, ?_⟩
      rw [databasesOn, bind_of_ok hon, bind_of_ok hothers]
      rfl

/-- The error of an intent is flat if those of the inventory are. -/
theorem isFlat_of_planIntent (hinventory : ∀ s e t, p.inventory space s = .error e t → e.IsFlat)
    (h : p.planIntent now space listed intent s = .error e t) : e.IsFlat := by
  cases hactive : intent.access.isActive now with
  | false =>
      rw [planIntent_of_inactive hactive] at h
      cases h
  | true =>
      cases hall : intent.access.allDatabases with
      | false =>
          rw [planIntent_of_one hactive hall] at h
          rcases bind_eq_error_iff.mp h with hhost | ⟨host, u, -, hrest⟩
          · exact (HostSelector.isSingle_of_resolve hhost).isFlat
          rcases bind_eq_error_iff.mp hrest with hone | ⟨access, v, -, hend⟩
          · rcases bind_eq_error_iff.mp hone with hdatabase | ⟨database, v, -, hrest⟩
            · exact (HostSelector.isSingle_of_resolve hdatabase).isFlat
            rcases bind_eq_error_iff.mp hrest with hschema | ⟨schema, w, -, hend⟩
            · exact (HostSelector.isSingle_of_resolveOr hschema).isFlat
            · cases hend
          · cases hend
      | true =>
          rw [planIntent_of_all hactive hall] at h
          rcases bind_eq_error_iff.mp h with hhost | ⟨host, u, -, hrest⟩
          · exact (HostSelector.isSingle_of_resolve hhost).isFlat
          unfold planAll at hrest
          split at hrest
          · cases hrest
          have hon : ∀ databases v, (do
              let here ← p.databasesOn space host databases
              return (some databases, here.map fun d => p.accessOn intent host d.name d.name) :
                Program σ Error _) v ≠ .error e t := by
            intro databases v herror
            obtain ⟨here, w, hrun⟩ : ∃ here w, (p.databasesOn space host databases :
                Program σ Error _) v = .ok here w := databasesOn_ok databases v
            rw [bind_of_ok hrun] at herror
            cases herror
          cases listed with
          | some databases => exact absurd hrest (hon databases u)
          | none =>
              rcases bind_eq_error_iff.mp hrest with hlist | ⟨databases, v, -, hrest⟩
              · exact hinventory u e t hlist
              · exact absurd hrest (hon databases v)

/-- The errors of intents are flat if those of the inventory are. -/
theorem isFlat_of_planEach (hinventory : ∀ s e t, p.inventory space s = .error e t → e.IsFlat)
    (intents : List Intent) (s : σ) :
    ∀ e ∈ errorsOf (p.planEach now space listed intents s).1, e.IsFlat := by
  induction intents generalizing listed s with
  | nil =>
      intro e he
      cases he
  | cons intent rest ih =>
      cases hrun : p.planIntent now space listed intent s with
      | ok found t =>
          rw [planEach, hrun]
          exact ih t
      | error e t =>
          rw [planEach, hrun]
          intro e' he'
          rcases List.mem_cons.mp he' with rfl | he'
          · exact isFlat_of_planIntent hinventory hrun
          · exact ih t e' he'

end Planner

end PgSteward
