import PgSteward.Policy.Shard
import PgSteward.Proofs.ProgramRuns

/-!
# Where the statement of a user is

`Sharder.settle` goes through the policies for the statements of a user.  Where there is none
nothing changes (`settle_of_free`).  Where there is one, it is in one policy (`split_of_one`), and
only this policy is mended, if the resource is not the one that is wanted (`settle_of_one`).
-/

namespace PgSteward

variable {userId : String} {resource : List String}

/-! ## In one policy -/

/-- No statement of a list is for a user. -/
def Free (userId : String) (statements : List PolicyStatement) : Prop :=
  ∀ st ∈ statements, st.isFor userId = false

theorem free_iff_countP {statements : List PolicyStatement} :
    Free userId statements ↔ statements.countP (·.isFor userId) = 0 := by
  simp [Free, List.countP_eq_zero]

/-- A statement of the user has been found afterwards when one had been found before or there is
one. -/
theorem sift_found (found : Bool) (statements : List PolicyStatement) :
    (sift userId resource found statements).found =
      (found || statements.any (·.isFor userId)) := by
  induction statements generalizing found with
  | nil => simp [sift]
  | cons st rest ih =>
      cases hst : st.isFor userId with
      | true => cases found <;> simp [sift, hst, ih]
      | false => simp [sift, hst, ih]

/-- Nothing is done about statements for others. -/
theorem sift_of_free {statements : List PolicyStatement} (h : Free userId statements)
    (found : Bool) : sift userId resource found statements = ⟨statements, found, false⟩ := by
  induction statements with
  | nil => rfl
  | cons st rest ih =>
      have hst := h st (List.mem_cons_self ..)
      have hrest := ih fun other hother => h other (List.mem_cons_of_mem _ hother)
      simp [sift, hst, hrest]

/-- The only statement for a user gets the resource that is wanted. -/
theorem sift_of_one {front back : List PolicyStatement} {st : PolicyStatement}
    (hfront : Free userId front) (hst : st.isFor userId = true) (hback : Free userId back) :
    sift userId resource false (front ++ st :: back) =
      ⟨front ++ { st with resource } :: back, true, st.resource ≠ resource⟩ := by
  induction front with
  | nil => simp [sift, hst, sift_of_free hback]
  | cons first rest ih =>
      have hfirst := hfront first (List.mem_cons_self ..)
      have hrest := ih fun other hother => hfront other (List.mem_cons_of_mem _ hother)
      simp [sift, hfirst, hrest]

/-! ## In the whole shard -/

/-- The statements of some policies. -/
def statementsIn (policies : List ManagedPolicy) : List PolicyStatement :=
  policies.flatMap fun p => p.document.statements

namespace Sharder

variable {σ : Type} (sh : Sharder σ)

/-- Policies without a statement for the user are passed over. -/
theorem settle_append_of_free {before : List ManagedPolicy}
    (h : Free userId (statementsIn before)) (holder : Option ManagedPolicy)
    (rest : List ManagedPolicy) :
    sh.settle userId resource holder (before ++ rest) =
      sh.settle userId resource holder rest := by
  induction before with
  | nil => rfl
  | cons policy before ih =>
      have hpolicy : Free userId policy.document.statements := fun st hst =>
        h st (List.mem_append_left _ hst)
      have hbefore := ih fun st hst => h st (List.mem_append_right _ hst)
      have hholder : holder.or (if holder.isSome then some policy else none) = holder := by
        cases holder <;> rfl
      rw [List.cons_append, settle, sift_of_free hpolicy]
      simp [hholder, hbefore]

/-- Nothing is done where no statement is for the user. -/
theorem settle_of_free {policies : List ManagedPolicy} (h : Free userId (statementsIn policies))
    (holder : Option ManagedPolicy) :
    sh.settle userId resource holder policies = pure holder := by
  have hall : sh.settle userId resource holder (policies ++ []) = pure holder :=
    sh.settle_append_of_free h holder []
  rwa [List.append_nil] at hall

end Sharder

/-- The place of a statement in the shard: its policy among the policies, and the statement among
those of its policy. -/
structure Place where
  before : List ManagedPolicy
  policy : ManagedPolicy
  after : List ManagedPolicy
  /-- The statements before. -/
  front : List PolicyStatement
  statement : PolicyStatement
  /-- The statements after. -/
  back : List PolicyStatement

/-- At a place is the only statement of the policies that is for a user. -/
structure Place.IsOnly (place : Place) (userId : String) (policies : List ManagedPolicy) :
    Prop where
  /-- The policies are those before, the policy and those after. -/
  policies : policies = place.before ++ place.policy :: place.after
  /-- The statements of the policy are those before, the statement and those after. -/
  statements : place.policy.document.statements =
    place.front ++ place.statement :: place.back
  /-- The statement is for the user. -/
  isFor : place.statement.isFor userId = true
  /-- No statement of a policy before is. -/
  before : Free userId (statementsIn place.before)
  /-- No statement of a policy after is. -/
  after : Free userId (statementsIn place.after)
  /-- No statement before is. -/
  front : Free userId place.front
  /-- No statement after is. -/
  back : Free userId place.back

/-- A statement that is the only one for a user among some statements has a place there. -/
theorem split_of_one {statements : List PolicyStatement}
    (h : statements.countP (·.isFor userId) = 1) :
    ∃ front st back, statements = front ++ st :: back ∧ st.isFor userId = true ∧
      Free userId front ∧ Free userId back := by
  induction statements with
  | nil => simp at h
  | cons first rest ih =>
      cases hfirst : first.isFor userId with
      | true =>
          rw [List.countP_cons, hfirst, if_pos rfl] at h
          exact ⟨[], first, rest, rfl, hfirst, by simp [Free],
            free_iff_countP.mpr (by omega)⟩
      | false =>
          rw [List.countP_cons, hfirst] at h
          obtain ⟨front, st, back, hrest, hst, hfront, hback⟩ := ih (by simpa using h)
          refine ⟨first :: front, st, back, by rw [hrest]; rfl, hst, ?_, hback⟩
          intro other hother
          cases hother with
          | head => exact hfirst
          | tail _ hmem => exact hfront other hmem

/-- A statement that is the only one for a user has a place in the shard. -/
theorem exists_place {policies : List ManagedPolicy}
    (h : (statementsIn policies).countP (·.isFor userId) = 1) :
    ∃ place : Place, place.IsOnly userId policies := by
  induction policies with
  | nil => simp [statementsIn] at h
  | cons policy rest ih =>
      rw [statementsIn, List.flatMap_cons, List.countP_append] at h
      by_cases hfree : Free userId policy.document.statements
      · rw [free_iff_countP.mp hfree, Nat.zero_add] at h
        obtain ⟨place, hplace⟩ := ih h
        refine ⟨{ place with before := policy :: place.before }, ?_, hplace.statements,
          hplace.isFor, ?_, hplace.after, hplace.front, hplace.back⟩
        · rw [hplace.policies]
          rfl
        · intro st hst
          rcases List.mem_append.mp hst with hpolicy | hbefore
          · exact hfree st hpolicy
          · exact hplace.before st hbefore
      · rw [free_iff_countP] at hfree
        have hone : policy.document.statements.countP (·.isFor userId) = 1 := by omega
        obtain ⟨front, st, back, hsplit, hst, hfront, hback⟩ := split_of_one hone
        have hrest : Free userId (statementsIn rest) :=
          free_iff_countP.mpr (by rw [statementsIn]; omega)
        exact ⟨⟨[], policy, rest, front, st, back⟩, rfl, hsplit, hst, by simp [Free, statementsIn],
          hrest, hfront, hback⟩

namespace Sharder

variable {σ : Type} (sh : Sharder σ)

/-- Only the policy with the statement of the user is mended, and only if the resource is not the
one that is wanted. -/
theorem settle_of_one {policies : List ManagedPolicy} {place : Place}
    (h : place.IsOnly userId policies) :
    sh.settle userId resource none policies = (do
      if place.statement.resource ≠ resource then
        sh.replaceStatements place.policy
          (place.front ++ { place.statement with resource } :: place.back)
      return some place.policy) := by
  rw [h.policies, settle_append_of_free sh h.before, settle, Option.isSome_none, h.statements,
    sift_of_one h.front h.isFor h.back]
  simp [settle_of_free sh h.after]

/-- Nothing is removed from a policy without a statement for the user. -/
theorem removeFrom_of_free {policy : ManagedPolicy}
    (h : Free userId policy.document.statements) : sh.removeFrom userId policy = pure () := by
  have hall : (policy.document.statements.filter fun st => !st.isFor userId) =
      policy.document.statements := by
    rw [List.filter_eq_self]
    intro st hst
    simp [h st hst]
  rw [removeFrom, hall]
  simp

/-- Nothing is removed where no statement is for the user. -/
theorem sequence_removeFrom_of_free {policies : List ManagedPolicy}
    (h : Free userId (statementsIn policies)) :
    Program.sequence (policies.map (sh.removeFrom userId)) = pure () := by
  refine Program.sequence_eq_pure fun p hp => ?_
  obtain ⟨policy, hpolicy, rfl⟩ := List.mem_map.mp hp
  refine sh.removeFrom_of_free fun st hst => h st ?_
  exact List.mem_flatMap.mpr ⟨policy, hpolicy, hst⟩

/-- What is left of the policy with the statement of the user: either nothing, and the policy goes,
or the other statements. -/
theorem sequence_removeFrom_of_one {policies : List ManagedPolicy} {place : Place}
    (h : place.IsOnly userId policies) :
    Program.sequence (policies.map (sh.removeFrom userId)) =
      if (place.front ++ place.back).isEmpty then sh.discard place.policy.arn
      else sh.replaceStatements place.policy (place.front ++ place.back) := by
  have hkept : (place.policy.document.statements.filter fun st => !st.isFor userId) =
      place.front ++ place.back := by
    have hfront : place.front.filter (fun st => !st.isFor userId) = place.front := by
      rw [List.filter_eq_self]
      intro st hst
      simp [h.front st hst]
    have hback : place.back.filter (fun st => !st.isFor userId) = place.back := by
      rw [List.filter_eq_self]
      intro st hst
      simp [h.back st hst]
    rw [h.statements, List.filter_append, List.filter_cons, h.isFor, hfront, hback]
    rfl
  have hshorter : (place.front ++ place.back).length ≠ place.policy.document.statements.length := by
    rw [h.statements]
    simp
  rw [h.policies, List.map_append, List.map_cons, Program.sequence_append, Program.sequence,
    sh.sequence_removeFrom_of_free h.before, sh.sequence_removeFrom_of_free h.after, pure_bind,
    removeFrom, hkept, if_neg hshorter]
  exact bind_pure_unit

end Sharder

end PgSteward
