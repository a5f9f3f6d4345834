import PgSteward.Proofs.ProvisionRuns

/-!
# Taking up again the making of a database

A run that was stopped by the refusal of a statement is followed by one without refusals.  A break
before the database is given away, or after the last step that reads its previous owner, leaves no
trace (`finish_eq_of_early`, `finish_eq_of_late`).  One in between loses the previous owner
(`finish_eq_iff_of_given`).  A refusal with the code of a circle goes unnoticed, but only the
membership of the manager role is missing then, and the next run adds it (`finish_eq_iff_of_run`).
-/

namespace PgSteward

namespace ProvisionStep

variable {strict : Bool} {c : Catalog} {steps others : List ProvisionStep}

/-! ## The order of the steps -/

/-- Whether a step makes neither a role nor an owner. -/
def IsFree : ProvisionStep → Prop
  | .role .. | .owner .. => False
  | _ => True

theorem mayPrecede_of_isFree (a : ProvisionStep) {b : ProvisionStep} (h : b.IsFree) :
    a.MayPrecede b := by
  cases b with
  | role n rs => exact h.elim
  | owner d o => exact h.elim
  | _ => cases a <;> trivial

/-- Roles come first, and there is one owner. -/
theorem pairwise_mayPrecede {n n' d o : String} {rs rs' : List String}
    (hsteps : ∀ step ∈ steps, step.IsFree) (hothers : ∀ step ∈ others, step.IsFree) :
    (.role n rs :: .role n' rs' :: (steps ++ .owner d o :: others)).Pairwise MayPrecede := by
  have hfree : ∀ l : List ProvisionStep, (∀ step ∈ l, step.IsFree) → l.Pairwise MayPrecede := by
    intro l hl
    induction l with
    | nil => exact .nil
    | cons a rest ih =>
        refine .cons (fun b hb => ?_) (ih fun b hb => hl b (List.mem_cons_of_mem _ hb))
        exact mayPrecede_of_isFree a (hl b (List.mem_cons_of_mem _ hb))
  refine .cons (fun b _ => by cases b <;> trivial) (.cons (fun b _ => by cases b <;> trivial) ?_)
  rw [List.pairwise_append]
  refine ⟨hfree steps hsteps, .cons (fun b hb => mayPrecede_of_isFree _ (hothers b hb))
    (hfree others hothers), fun a ha b hb => ?_⟩
  rcases List.mem_cons.mp hb with rfl | hb
  · have haf := hsteps a ha
    cases a <;> trivial
  · exact mayPrecede_of_isFree a (hothers b hb)

/-! ## A membership out of its turn -/

/-- Whether a step comes to the same before and after another. -/
def Commutes (strict : Bool) (a b : ProvisionStep) : Prop :=
  ∀ c : Catalog, (b.Possible strict (a.effect strict c) ↔ b.Possible strict c) ∧
    b.effect strict (a.effect strict c) = a.effect strict (b.effect strict c)

theorem commutes_database (r m d o : String) :
    Commutes strict (.tryMember r m) (.database d o) := fun _ => by
  refine ⟨Iff.rfl, Catalog.join_comm_of (f := fun a => a.withDatabase d o) fun _ _ => ?_⟩
  unfold Catalog.withDatabase
  split <;> rfl

theorem commutes_owner (r m d o : String) :
    Commutes strict (.tryMember r m) (.owner d o) := fun _ =>
  ⟨Iff.rfl, Catalog.join_comm_of (f := fun a => a.withOwner d o) fun _ _ => rfl⟩

theorem commutes_schema (r m d n o : String) :
    Commutes strict (.tryMember r m) (.schema d n o) := fun _ => by
  refine ⟨Iff.rfl, Catalog.join_comm_of (f := fun a => a.withSchema d n o) fun a _ => ?_⟩
  unfold Catalog.withSchema
  split
  next h => rw [if_pos (show (a.schemaOwner? d n).isSome from h)]
  next h =>
    rw [if_neg (show ¬(a.schemaOwner? d n).isSome from h)]
    rfl

theorem commutes_extension (r m n : String) :
    Commutes strict (.tryMember r m) (.extension n) := fun _ =>
  ⟨Iff.rfl, Catalog.join_comm_of (f := fun a => a.withExtension n) fun _ _ => rfl⟩

theorem commutes_member {r m r' m' : String} (hne : m ≠ m') (hr : r' ≠ m) :
    Commutes strict (.tryMember r m) (.member r' m') := by
  refine fun c => ⟨?_, Catalog.join_comm hne hr⟩
  refine and_congr Iff.rfl (or_congr Iff.rfl (not_congr ?_))
  show (c.join strict r m).GoesInCircle strict m' r' ↔ _
  unfold Catalog.GoesInCircle
  rw [Catalog.mem_rolesOf_join]
  simp [hr]

/-- A step that commutes with some steps may be taken before or after them. -/
theorem after_effect {step : ProvisionStep} (h : ∀ other ∈ steps, Commutes strict step other) :
    (Passes strict (step.effect strict c) steps ↔ Passes strict c steps) ∧
      after strict (step.effect strict c) steps = step.effect strict (after strict c steps) := by
  induction steps generalizing c with
  | nil => exact ⟨Iff.rfl, rfl⟩
  | cons other rest ih =>
      obtain ⟨hpossible, heffect⟩ := h other (List.mem_cons_self ..) c
      obtain ⟨hpasses, hafter⟩ := ih (c := other.effect strict c)
        fun b hb => h b (List.mem_cons_of_mem _ hb)
      refine ⟨?_, ?_⟩
      · rw [Passes, Passes, hpossible, heffect, hpasses]
      · show after strict (other.effect strict (step.effect strict c)) rest = _
        rw [heffect, hafter]
        rfl

end ProvisionStep

namespace Cluster

open ProvisionStep

/-! ## The steps to a database as a whole -/

/-- The steps up to the owner of a database. -/
def headSteps (admin : String) (target : DatabaseTarget) (m r d : Identifier) :
    List ProvisionStep :=
  roleSteps m r target.password ++ joinSteps m r ++
    [.database d.name admin, .owner d.name (if target.shared then m.name else r.name)]

/-- The step that makes the login role a member of the previous owner. -/
def previousSteps (c : Catalog) (admin : String) (target : DatabaseTarget) (m r : Identifier) :
    List ProvisionStep :=
  ((previousOwner? c admin m.name target).map fun owner => .member owner r.name).toList

/-- The steps to a database. -/
def allSteps (c : Catalog) (admin : String) (target : DatabaseTarget) (m r d : Identifier)
    (es : List Identifier) : List ProvisionStep :=
  headSteps admin target m r d ++ (previousSteps c admin target m r ++ schemaSteps r d es)

/-- Whether a catalog has the schema of a database and some extensions. -/
def IsComplete (c : Catalog) (target : DatabaseTarget) (extensions : List String) : Prop :=
  (c.schemaOwner? target.name target.name).isSome ∧ ∀ e ∈ extensions, e ∈ c.extensions

/-- Whether a database has been given to the manager role without making the login role a member of
the previous owner. -/
def PreviousOwnerLost (before after : Catalog) (admin manager : String)
    (target : DatabaseTarget) : Prop :=
  ∃ owner, previousOwner? before admin manager target = some owner ∧ owner ≠ "ON" ∧
    after.databases[target.name]? = some manager ∧ owner ∉ after.rolesOf target.user

variable {strict : Bool} {c c' : Catalog} {admin : String} {target : DatabaseTarget}
  {m r d : Identifier} {es : List Identifier}

theorem isFree_of_mem_schemaSteps {step : ProvisionStep} (h : step ∈ schemaSteps r d es) :
    step.IsFree := by
  rcases List.mem_cons.mp h with rfl | h
  · trivial
  · obtain ⟨e, -, rfl⟩ := List.mem_map.mp h
    trivial

theorem allSteps_pairwise : (allSteps c admin target m r d es).Pairwise MayPrecede := by
  have hform : allSteps c admin target m r d es =
      .role m.name [] :: .role r.name (Command.newRoles (Statement.createRole r true
        (some target.password) (if r.name = m.name then [] else [m])).text.toList) ::
        (((if r.name = m.name then [] else [m]).map (fun g => .member g.name r.name) ++
          joinSteps m r ++ [.database d.name admin]) ++
        .owner d.name (if target.shared then m.name else r.name) ::
          (previousSteps c admin target m r ++ schemaSteps r d es)) := by
    simp [allSteps, headSteps, roleSteps, loginSteps]
  rw [hform]
  refine pairwise_mayPrecede (fun step hstep => ?_) fun step hstep => ?_
  · rcases List.mem_append.mp hstep with hstep | hstep
    · rcases List.mem_append.mp hstep with hstep | hstep
      · obtain ⟨g, -, rfl⟩ := List.mem_map.mp hstep
        trivial
      · unfold joinSteps at hstep
        split at hstep
        next => cases hstep
        next =>
          rw [List.mem_singleton.mp hstep]
          trivial
    · rw [List.mem_singleton.mp hstep]
      trivial
  · rcases List.mem_append.mp hstep with hstep | hstep
    · obtain ⟨owner, -, rfl⟩ := Option.map_eq_some_iff.mp (Option.mem_toList.mp hstep)
      trivial
    · exact isFree_of_mem_schemaSteps hstep

/-- Whether a catalog is left when the first of some steps have been taken. -/
def LeftBy (strict : Bool) (c : Catalog) (steps : List ProvisionStep) (left : Catalog) : Prop :=
  ∃ done rest, steps = done ++ rest ∧ Passes strict c done ∧ left = after strict c done

/-- The steps to the schema and the extensions are always possible. -/
theorem passes_schemaSteps (c : Catalog) : Passes strict c (schemaSteps r d es) := by
  have h : ∀ (es : List Identifier) (c : Catalog),
      Passes strict c (es.map fun e => .extension e.name) := by
    intro es
    induction es with
    | nil => exact fun _ => trivial
    | cons e rest ih => exact fun c => ⟨trivial, ih _⟩
  exact ⟨trivial, h es _⟩

/-- The steps to the schema and the extensions keep the memberships. -/
theorem memberships_schemaSteps (c : Catalog) :
    (after strict c (schemaSteps r d es)).memberships = c.memberships := by
  have h : ∀ (es : List Identifier) (c : Catalog),
      (after strict c (es.map fun e => .extension e.name)).memberships = c.memberships := by
    intro es
    induction es with
    | nil => exact fun _ => rfl
    | cons e rest ih => exact fun c => ih _
  refine (h es _).trans ?_
  show (c.withSchema d.name d.name r.name).memberships = _
  rw [Catalog.withSchema_eq]

/-- The steps to the schema and the extensions change nothing exactly when all is there. -/
theorem after_schemaSteps_eq_self_iff (hd : d.name = target.name) :
    after strict c (schemaSteps r d es) = c ↔ IsComplete c target (es.map (·.name)) := by
  have hdone : (∀ step ∈ schemaSteps r d es, step.Done strict c) ↔
      IsComplete c target (es.map (·.name)) := by
    rw [IsComplete, ← hd]
    constructor
    · intro h
      refine ⟨h _ (List.mem_cons_self ..), fun e he => ?_⟩
      obtain ⟨i, hi, rfl⟩ := List.mem_map.mp he
      exact h (.extension i.name) (List.mem_cons_of_mem _ (List.mem_map.mpr ⟨i, hi, rfl⟩))
    · rintro ⟨hschema, hextensions⟩ step hstep
      rcases List.mem_cons.mp hstep with rfl | hstep
      · exact hschema
      · obtain ⟨i, hi, rfl⟩ := List.mem_map.mp hstep
        exact hextensions i.name (List.mem_map.mpr ⟨i, hi, rfl⟩)
  rw [← hdone]
  constructor
  · intro hsame
    have hpairwise : (schemaSteps r d es).Pairwise MayPrecede := by
      have h : (allSteps c "" target r r d es).Pairwise MayPrecede := allSteps_pairwise
      exact (List.pairwise_append.mp (List.pairwise_append.mp h).2.1).2.1
    have hpasses : Passes strict c (schemaSteps r d es) := passes_schemaSteps c
    have h := done_after hpairwise hpasses
    rwa [hsame] at h
  · exact fun h => (after_of_done h).2

/-- The steps up to the owner keep the schemas and the extensions. -/
theorem isComplete_after_headSteps {extensions : List String} :
    IsComplete (after strict c (headSteps admin target m r d)) target extensions ↔
      IsComplete c target extensions := by
  have hspares : ∀ step ∈ headSteps admin target m r d, step.SparesSchemas := fun step hstep => by
    rcases List.mem_append.mp hstep with hstep | hstep
    · rcases List.mem_append.mp hstep with hstep | hstep
      · exact (isOfRoles_of_mem_roleSteps hstep).sparesSchemas
      · exact (isOfRoles_of_mem_joinSteps hstep).sparesSchemas
    · rcases List.mem_cons.mp hstep with rfl | hstep
      · trivial
      · rw [List.mem_singleton.mp hstep]
        trivial
  obtain ⟨hschemas, hextensions⟩ := schemas_after hspares
  rw [IsComplete, Catalog.schemaOwner?, hschemas, hextensions]
  rfl

/-! ## The previous owner -/

theorem previousOwner?_eq_some_iff {manager owner : String} :
    previousOwner? c admin manager target = some owner ↔
      target.shared = true ∧ c.databases.getD target.name admin = owner ∧
        owner ≠ target.user ∧ owner ≠ manager := by
  rw [previousOwner?]
  split
  next hshared =>
    rw [Option.filter_eq_some_iff]
    simp [hshared]
  next hshared => simp [hshared]

theorem previousSteps_congr
    (h : c'.databases.getD target.name admin = c.databases.getD target.name admin) :
    previousSteps c' admin target m r = previousSteps c admin target m r := by
  rw [previousSteps, previousOwner?, h]
  rfl

/-- Once the database has been given away, no step is left for the previous owner. -/
theorem previousSteps_eq_nil
    (hm : c.databases[target.name]? = some m.name ∨ target.shared = false) :
    previousSteps c admin target m r = [] := by
  have hnone : previousOwner? c admin m.name target = none := by
    rw [Option.eq_none_iff_forall_ne_some]
    intro owner howner
    obtain ⟨hshared, hown, -, hne⟩ := previousOwner?_eq_some_iff.mp howner
    rcases hm with hm | hm
    · rw [Std.ExtTreeMap.getD_eq_getD_getElem?, hm] at hown
      exact hne hown.symm
    · rw [hm] at hshared
      cases hshared
  rw [previousSteps, hnone]
  rfl

/-! ## Taking up the steps again -/

theorem passes_and_finish_of_done (hdone : ∀ step ∈ steps, step.Done strict c)
    (others : List ProvisionStep) :
    (Passes strict c (steps ++ others) ↔ Passes strict c others) ∧
      finish strict c (steps ++ others) = finish strict c others := by
  obtain ⟨hpasses, hsame⟩ := after_of_done hdone
  rw [passes_append_iff, finish_append hpasses, hsame]
  exact ⟨and_iff_right hpasses, rfl⟩

/-- A break before the database is given away leaves no trace. -/
theorem finish_eq_of_early {done rest : List ProvisionStep}
    (hhead : headSteps admin target m r d = done ++ rest) (hrest : rest ≠ [])
    (hd : d.name = target.name) (hpasses : Passes strict c done) :
    (Passes strict (after strict c done) (allSteps (after strict c done) admin target m r d es) ↔
        Passes strict c (allSteps c admin target m r d es)) ∧
      finish strict (after strict c done) (allSteps (after strict c done) admin target m r d es) =
        finish strict c (allSteps c admin target m r d es) ∧
      ¬PreviousOwnerLost c (after strict c done) admin m.name target := by
  have hown : (after strict c done).databases.getD target.name admin =
      c.databases.getD target.name admin := by
    refine getD_databases_after fun step hstep => ?_
    have hfront : roleSteps m r target.password ++ joinSteps m r ++ [.database d.name admin] =
        done ++ rest.dropLast := by
      rw [← List.dropLast_append_of_ne_nil hrest, ← hhead, headSteps, List.dropLast_append_cons]
      rfl
    have hmem : step ∈ done ++ rest.dropLast := List.mem_append_left _ hstep
    rw [← hfront] at hmem
    rcases List.mem_append.mp hmem with hmem | hmem
    · rcases List.mem_append.mp hmem with hmem | hmem
      · exact .inl (isOfRoles_of_mem_roleSteps hmem)
      · exact .inl (isOfRoles_of_mem_joinSteps hmem)
    · rw [← hd]
      exact .inr (List.mem_singleton.mp hmem)
  have hsteps : allSteps (after strict c done) admin target m r d es =
      done ++ (rest ++ (previousSteps c admin target m r ++ schemaSteps r d es)) := by
    rw [allSteps, previousSteps_congr hown, hhead, List.append_assoc]
  have hsteps' : allSteps c admin target m r d es =
      done ++ (rest ++ (previousSteps c admin target m r ++ schemaSteps r d es)) := by
    rw [allSteps, hhead, List.append_assoc]
  have horder : done.Pairwise MayPrecede := by
    have h : (allSteps c admin target m r d es).Pairwise MayPrecede := allSteps_pairwise
    rw [hsteps'] at h
    exact (List.pairwise_append.mp h).1
  obtain ⟨hfinish, hiff⟩ := finish_after horder hpasses
  rw [hsteps, hsteps']
  refine ⟨hiff, hfinish, ?_⟩
  rintro ⟨owner, howner, -, hgiven, -⟩
  obtain ⟨-, hprevious, -, hne⟩ := previousOwner?_eq_some_iff.mp howner
  rw [Std.ExtTreeMap.getD_eq_getD_getElem?, hgiven] at hown
  exact hne (hprevious.symm.trans hown.symm)

/-- When the database has been given away, only the schema and the extensions are left to do. -/
theorem finish_of_given {done : List ProvisionStep} (hd : d.name = target.name)
    (hhead : ∀ step ∈ headSteps admin target m r d, step ∈ done)
    (horder : done.Pairwise MayPrecede) (hpasses : Passes strict c done) :
    previousSteps (after strict c done) admin target m r = [] ∧
      finish strict (after strict c done) (allSteps (after strict c done) admin target m r d es) =
        after strict (after strict c done) (schemaSteps r d es) := by
  have hdone := done_after horder hpasses
  have hgiven : (after strict c done).databases[target.name]? =
      some (if target.shared then m.name else r.name) := by
    rw [← hd]
    exact hdone (.owner d.name _) (hhead _ (by simp [headSteps]))
  have hnone : previousSteps (after strict c done) admin target m r = [] := by
    refine previousSteps_eq_nil ?_
    cases hshared : target.shared with
    | false => exact .inr rfl
    | true =>
        rw [hshared, if_pos rfl] at hgiven
        exact .inl hgiven
  refine ⟨hnone, ?_⟩
  rw [allSteps, hnone, List.nil_append,
    (passes_and_finish_of_done (fun step hstep => hdone step (hhead step hstep)) _).2]
  exact finish_of_passes (passes_schemaSteps _)

theorem not_previousOwnerLost_iff {owner : String}
    (howner : previousOwner? c admin m.name target = some owner)
    (hgiven : c'.databases[target.name]? = some m.name) (hr : r.name = target.user)
    (hpossible : Possible strict c' (.member owner r.name)) :
    ¬PreviousOwnerLost c c' admin m.name target ↔
      ProvisionStep.effect strict c' (.member owner r.name) = c' := by
  show _ ↔ c'.join strict owner r.name = c'
  rw [Catalog.join_eq_self_iff]
  constructor
  · intro h
    by_cases hon : owner = "ON"
    · exact .inl hon
    · refine .inr (.inr ?_)
      rw [hr]
      exact Classical.byContradiction fun hmember => h ⟨owner, howner, hon, hgiven, hmember⟩
  · rintro h ⟨owner', howner', hon, -, hmember⟩
    obtain rfl : owner = owner' := Option.some.inj (howner.symm.trans howner')
    rcases h with h | h | h
    · exact hon h
    · exact hpossible.2.resolve_left hon h
    · exact hmember (by rwa [hr] at h)

/-- A break between the giving away and the membership loses the previous owner. -/
theorem finish_eq_iff_of_given {owner : String}
    (howner : previousOwner? c admin m.name target = some owner) (hr : r.name = target.user)
    (hd : d.name = target.name) (hpasses : Passes strict c (headSteps admin target m r d)) :
    finish strict (after strict c (headSteps admin target m r d))
        (allSteps (after strict c (headSteps admin target m r d)) admin target m r d es) =
        finish strict c (allSteps c admin target m r d es) ↔
      (Passes strict c (allSteps c admin target m r d es) →
        ¬PreviousOwnerLost c (after strict c (headSteps admin target m r d)) admin m.name target) ∧
      (¬Passes strict c (allSteps c admin target m r d es) →
        IsComplete c target (es.map (·.name))) := by
  have hprevious : previousSteps c admin target m r = [.member owner r.name] := by
    rw [previousSteps, howner]
    rfl
  have horder : (headSteps admin target m r d).Pairwise MayPrecede := by
    have h : (allSteps c admin target m r d es).Pairwise MayPrecede := allSteps_pairwise
    exact (List.pairwise_append.mp h).1
  have hgiven : (after strict c (headSteps admin target m r d)).databases[target.name]? =
      some m.name := by
    have h := done_after horder hpasses
      (.owner d.name (if target.shared then m.name else r.name)) (by simp [headSteps])
    rw [← hd]
    rwa [(previousOwner?_eq_some_iff.mp howner).1] at h
  have hsteps : allSteps c admin target m r d es =
      headSteps admin target m r d ++ .member owner r.name :: schemaSteps r d es := by
    rw [allSteps, hprevious]
    rfl
  have hcomplete : IsComplete (after strict c (headSteps admin target m r d)) target
      (es.map (·.name)) ↔ IsComplete c target (es.map (·.name)) := isComplete_after_headSteps
  rw [(finish_of_given hd (fun _ h => h) horder hpasses).2, hsteps, finish_append hpasses,
    passes_append_iff, and_iff_right hpasses, ← hcomplete]
  generalize after strict c (headSteps admin target m r d) = left at hgiven ⊢
  rw [finish, Passes, and_iff_left (passes_schemaSteps _)]
  split
  next hpossible =>
    rw [finish_of_passes (passes_schemaSteps _),
      not_previousOwnerLost_iff howner hgiven hr hpossible]
    constructor
    · intro hsame
      refine ⟨fun _ => ?_, fun h => absurd hpossible h⟩
      have hmemberships := congrArg Catalog.memberships hsame
      rw [memberships_schemaSteps, memberships_schemaSteps] at hmemberships
      show left.join strict owner r.name = left
      rw [Catalog.join_eq]
      exact congrArg (fun memberships => { left with memberships }) hmemberships.symm
    · intro h
      rw [h.1 hpossible]
  next himpossible =>
    rw [after_schemaSteps_eq_self_iff hd]
    exact ⟨fun h => ⟨fun hpossible => absurd hpossible himpossible, fun _ => h⟩,
      fun h => h.2 himpossible⟩

/-- A break after the last step that reads the previous owner leaves no trace. -/
theorem finish_eq_of_late {done rest : List ProvisionStep}
    (hsteps : allSteps c admin target m r d es = done ++ rest) (hr : r.name = target.user)
    (hd : d.name = target.name)
    (hhead : ∀ step ∈ headSteps admin target m r d ++ previousSteps c admin target m r, step ∈ done)
    (hpasses : Passes strict c done) :
    Passes strict c (allSteps c admin target m r d es) ∧
      finish strict (after strict c done) (allSteps (after strict c done) admin target m r d es) =
        finish strict c (allSteps c admin target m r d es) ∧
      ¬PreviousOwnerLost c (after strict c done) admin m.name target := by
  have horder : done.Pairwise MayPrecede := by
    have h : (allSteps c admin target m r d es).Pairwise MayPrecede := allSteps_pairwise
    rw [hsteps] at h
    exact (List.pairwise_append.mp h).1
  have hdone := done_after horder hpasses
  have hform : allSteps c admin target m r d es =
      (headSteps admin target m r d ++ previousSteps c admin target m r) ++ schemaSteps r d es := by
    rw [allSteps, List.append_assoc]
  have hall := passes_and_finish_of_done (fun step hstep => hdone step (hhead step hstep))
    (schemaSteps r d es)
  rw [← hform] at hall
  obtain ⟨hfinish, hiff⟩ := finish_after horder hpasses
  rw [← hsteps] at hfinish hiff
  refine ⟨hiff.mp (hall.1.mpr (passes_schemaSteps _)), ?_, ?_⟩
  · have hthere : ∀ step ∈ headSteps admin target m r d, step ∈ done := fun step hstep =>
      hhead step (List.mem_append_left _ hstep)
    rw [(finish_of_given hd hthere horder hpasses).2, ← hfinish, hall.2,
      finish_of_passes (passes_schemaSteps _)]
  · rintro ⟨owner, howner, hon, -, hmember⟩
    have hstep : ProvisionStep.member owner r.name ∈ previousSteps c admin target m r := by
      rw [previousSteps, howner]
      exact List.mem_singleton.mpr rfl
    obtain ⟨-, hon' | ⟨-, hmember'⟩⟩ := hdone _ (hhead _ (List.mem_append_right _ hstep))
    · exact hon hon'
    · exact hmember (by rwa [hr] at hmember')

/-- Steps that are taken up again and pass come to what they would have come to without a break
exactly when the previous owner is not lost. -/
theorem finish_eq_iff (hr : r.name = target.user) (hd : d.name = target.name)
    (hleft : LeftBy strict c (allSteps c admin target m r d es) c')
    (hretry : Passes strict c' (allSteps c' admin target m r d es)) :
    finish strict c' (allSteps c' admin target m r d es) =
        finish strict c (allSteps c admin target m r d es) ↔
      (Passes strict c (allSteps c admin target m r d es) →
        ¬PreviousOwnerLost c c' admin m.name target) ∧
      (¬Passes strict c (allSteps c admin target m r d es) →
        IsComplete c target (es.map (·.name))) := by
  obtain ⟨done, rest, hsteps, hpasses, rfl⟩ := hleft
  have hsame : ∀ {passes same lost complete : Prop}, passes ∧ same ∧ ¬lost →
      (same ↔ (passes → ¬lost) ∧ (¬passes → complete)) := by
    rintro passes same lost complete ⟨hp, hs, hl⟩
    simp [hp, hs, hl]
  have hsplit : (∃ x, done = headSteps admin target m r d ++ x ∧
      previousSteps c admin target m r ++ schemaSteps r d es = x ++ rest) ∨
      ∃ x, x ≠ [] ∧ headSteps admin target m r d = done ++ x := by
    rcases List.append_eq_append_iff.mp hsteps with h | ⟨x, hhead, hx⟩
    · exact .inl h
    · cases x with
      | nil => exact .inl ⟨[], by simpa using hhead.symm, by simpa using hx.symm⟩
      | cons step more => exact .inr ⟨step :: more, by simp, hhead⟩
  rcases hsplit with ⟨x, hdone, hx⟩ | ⟨x, hx, hhead⟩
  · -- The database has been given away.
    rcases List.append_eq_append_iff.mp hx with ⟨y, rfl, -⟩ | ⟨y, hprevious, -⟩
    · refine hsame (finish_eq_of_late hsteps hr hd (fun step hstep => ?_) hpasses)
      rw [hdone, ← List.append_assoc]
      exact List.mem_append_left _ hstep
    · cases howner : previousOwner? c admin m.name target with
      | none =>
          refine hsame (finish_eq_of_late hsteps hr hd (fun step hstep => ?_) hpasses)
          rw [previousSteps, howner] at hstep
          rw [hdone]
          exact List.mem_append_left _ (by simpa using hstep)
      | some owner =>
          cases x with
          | nil =>
              rw [List.append_nil] at hdone
              rw [hdone] at hpasses ⊢
              exact finish_eq_iff_of_given howner hr hd hpasses
          | cons step more =>
              refine hsame (finish_eq_of_late hsteps hr hd (fun other hother => ?_) hpasses)
              rw [previousSteps, howner] at hprevious hother
              obtain ⟨rfl, hnil⟩ := List.cons.inj hprevious
              rw [hdone]
              refine (List.mem_append.mp hother).elim (List.mem_append_left _) fun h => ?_
              exact List.mem_append_right _ (List.mem_cons.mpr (.inl (List.mem_singleton.mp h)))
  · obtain ⟨hiff, hfinish, hlost⟩ := finish_eq_of_early hhead hx hd hpasses
    exact hsame ⟨hiff.mp hretry, hfinish, hlost⟩

/-! ## A membership that goes unnoticed -/

theorem commutes_of_mem_ownerSteps {step : ProvisionStep} (hm : r.name ≠ m.name)
    (h : step ∈ ownerSteps c admin target m r d ++ schemaSteps r d es) :
    Commutes strict (.tryMember r.name m.name) step := by
  rcases List.mem_append.mp h with h | h
  · rcases List.mem_cons.mp h with rfl | h
    · exact commutes_database _ _ _ _
    · rcases List.mem_cons.mp h with rfl | h
      · exact commutes_owner _ _ _ _
      · obtain ⟨owner, howner, rfl⟩ := Option.map_eq_some_iff.mp (Option.mem_toList.mp h)
        exact commutes_member hm.symm (previousOwner?_eq_some_iff.mp howner).2.2.2
  · rcases List.mem_cons.mp h with rfl | h
    · exact commutes_schema _ _ _ _ _
    · obtain ⟨e, -, rfl⟩ := List.mem_map.mp h
      exact commutes_extension _ _ _

theorem allSteps_eq : allSteps c admin target m r d es =
    roleSteps m r target.password ++ (joinSteps m r ++
      (ownerSteps c admin target m r d ++ schemaSteps r d es)) := by
  simp [allSteps, headSteps, previousSteps, ownerSteps]

/-- A run that has left out the membership of the manager role has either stopped before it, or it
has all but this membership. -/
theorem leftBy_or_join {joins : List ProvisionStep} (hjoins : joins = joinSteps m r ∨ joins = [])
    (hleft : LeftBy strict c (roleSteps m r target.password ++ joins ++
      ownerSteps c admin target m r d ++ schemaSteps r d es) c') :
    LeftBy strict c (allSteps c admin target m r d es) c' ∨
      (r.name ≠ m.name ∧ (∀ step ∈ roleSteps m r target.password, step.Done strict c') ∧
        LeftBy strict c (allSteps c admin target m r d es) (c'.join strict r.name m.name)) := by
  rw [List.append_assoc, List.append_assoc] at hleft
  by_cases hall : joins = joinSteps m r
  · rw [hall, ← allSteps_eq] at hleft
    exact .inl hleft
  · rw [hjoins.resolve_left hall, List.nil_append] at hleft
    have hne : r.name ≠ m.name := fun hself =>
      hall ((hjoins.resolve_left hall).trans (if_pos hself).symm)
    have hjoin : joinSteps m r = [.tryMember r.name m.name] := if_neg hne
    obtain ⟨done, rest, hsteps, hpasses, rfl⟩ := hleft
    rcases List.append_eq_append_iff.mp hsteps with ⟨x, rfl, hx⟩ | ⟨x, hroles, -⟩
    · obtain ⟨hroles, hothers⟩ := passes_append_iff.mp hpasses
      have hlater : ∀ other ∈ x, Commutes strict (.tryMember r.name m.name) other :=
        fun other hother => by
          have hmem : other ∈ x ++ rest := List.mem_append_left _ hother
          rw [← hx] at hmem
          exact commutes_of_mem_ownerSteps hne hmem
      obtain ⟨hpassesLater, hafterLater⟩ :=
        after_effect (c := after strict c (roleSteps m r target.password)) hlater
      have hsteps : allSteps c admin target m r d es =
          roleSteps m r target.password ++ .tryMember r.name m.name :: (x ++ rest) := by
        rw [allSteps_eq, hjoin, hx]
        rfl
      have horder : (roleSteps m r target.password ++ x).Pairwise MayPrecede := by
        have h : (allSteps c admin target m r d es).Pairwise MayPrecede := allSteps_pairwise
        rw [hsteps] at h
        exact h.sublist ((List.Sublist.refl _).append
          (.cons _ (List.sublist_append_left x rest)))
      refine .inr ⟨hne, fun step hstep =>
        done_after horder hpasses step (List.mem_append_left _ hstep), ?_⟩
      refine ⟨roleSteps m r target.password ++ .tryMember r.name m.name :: x, rest, ?_, ?_, ?_⟩
      · rw [hsteps, List.append_assoc]
        rfl
      · exact passes_append_iff.mpr ⟨hroles, trivial, hpassesLater.mpr hothers⟩
      · rw [after_append, after_append]
        exact hafterLater.symm
    · refine .inl ⟨done, x ++ (joinSteps m r ++
        (ownerSteps c admin target m r d ++ schemaSteps r d es)), ?_, hpasses, rfl⟩
      rw [allSteps_eq, hroles, List.append_assoc]

/-- The next run makes up for the membership. -/
theorem finish_join (hne : r.name ≠ m.name)
    (hroles : ∀ step ∈ roleSteps m r target.password, step.Done strict c) :
    (Passes strict (c.join strict r.name m.name)
        (allSteps (c.join strict r.name m.name) admin target m r d es) ↔
      Passes strict c (allSteps c admin target m r d es)) ∧
      finish strict (c.join strict r.name m.name)
        (allSteps (c.join strict r.name m.name) admin target m r d es) =
      finish strict c (allSteps c admin target m r d es) := by
  have hjoin : joinSteps m r = [.tryMember r.name m.name] := if_neg hne
  have hdatabases : (c.join strict r.name m.name).databases = c.databases := by
    rw [Catalog.join_eq]
  have hprevious : previousSteps (c.join strict r.name m.name) admin target m r =
      previousSteps c admin target m r := previousSteps_congr (by rw [hdatabases])
  have hsame : allSteps (c.join strict r.name m.name) admin target m r d es =
      allSteps c admin target m r d es := by
    rw [allSteps, allSteps, hprevious]
  have hdone : ∀ step ∈ roleSteps m r target.password ++ [.tryMember r.name m.name],
      step.Done strict (c.join strict r.name m.name) := fun step hstep => by
    rcases List.mem_append.mp hstep with hstep | hstep
    · exact (hroles step hstep).keeps (b := .tryMember r.name m.name)
        (mayPrecede_of_isFree step trivial)
    · rw [List.mem_singleton.mp hstep]
      have hpossible : Possible strict c (.tryMember r.name m.name) := trivial
      exact done_effect hpossible
  rw [hsame, allSteps_eq, hjoin]
  obtain ⟨hpasses, hfinish⟩ := passes_and_finish_of_done hroles ([.tryMember r.name m.name] ++
    (ownerSteps c admin target m r d ++ schemaSteps r d es))
  obtain ⟨hpasses', hfinish'⟩ := passes_and_finish_of_done hdone
    (ownerSteps c admin target m r d ++ schemaSteps r d es)
  rw [List.append_assoc] at hpasses' hfinish'
  rw [hpasses, hpasses', hfinish, hfinish']
  exact ⟨(and_iff_right trivial).symm, (if_pos trivial).symm⟩

theorem previousOwnerLost_join (hr : r.name = target.user) (hne : r.name ≠ m.name) :
    PreviousOwnerLost c (c'.join strict r.name m.name) admin m.name target ↔
      PreviousOwnerLost c c' admin m.name target := by
  unfold PreviousOwnerLost
  have hmember : ∀ owner, owner ∈ (c'.join strict r.name m.name).rolesOf target.user ↔
      owner ∈ c'.rolesOf target.user := fun owner => by
    rw [Catalog.mem_rolesOf_join, ← hr]
    simp [hne]
  have hdatabases : (c'.join strict r.name m.name).databases = c'.databases := by
    rw [Catalog.join_eq]
  simp only [hmember, hdatabases]

/-- What a run leaves comes to what it would have come to without a break exactly when the previous
owner is not lost. -/
theorem finish_eq_iff_of_run (hr : r.name = target.user) (hd : d.name = target.name)
    {joins : List ProvisionStep} (hjoins : joins = joinSteps m r ∨ joins = [])
    (hleft : LeftBy strict c (roleSteps m r target.password ++ joins ++
      ownerSteps c admin target m r d ++ schemaSteps r d es) c')
    (hretry : Passes strict c' (allSteps c' admin target m r d es)) :
    finish strict c' (allSteps c' admin target m r d es) =
        finish strict c (allSteps c admin target m r d es) ↔
      (Passes strict c (allSteps c admin target m r d es) →
        ¬PreviousOwnerLost c c' admin m.name target) ∧
      (¬Passes strict c (allSteps c admin target m r d es) →
        IsComplete c target (es.map (·.name))) := by
  rcases leftBy_or_join hjoins hleft with hleft | ⟨hne, hroles, hleft⟩
  · exact finish_eq_iff hr hd hleft hretry
  · rw [← (finish_join hne hroles).2, ← previousOwnerLost_join hr hne]
    exact finish_eq_iff hr hd hleft ((finish_join hne hroles).1.mpr hretry)

end Cluster

end PgSteward
