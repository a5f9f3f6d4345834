import PgSteward.Proofs.ProgramRuns
import PgSteward.Proofs.ShardSearch

/-!
# Invariants of work on the shard

The policies are listed once, and then worked on one after the other, over any policy store.  So an
invariant is about the surroundings and the policies that are still to be worked on.  `Guards` lists
what the parts of ensuring a user have to keep, and `Guards.ensure` puts them together.
-/

namespace PgSteward

open Program

namespace Sharder

variable {σ : Type} {sh : Sharder σ} {I : List ManagedPolicy → σ → Prop}
  {E : IamError → σ → Prop} {s t : σ} {policies : List ManagedPolicy} {userId user role : String}

/-- The parts of ensuring a user keep an invariant about the policies that are still to be worked
on, or leave what a failure may leave. -/
structure Guards (sh : Sharder σ) (I : List ManagedPolicy → σ → Prop)
    (E : IamError → σ → Prop) : Prop where
  sublist : ∀ {l l' : List ManagedPolicy} {t}, l.Sublist l' → I l' t → I l t
  policies : ∀ {t}, I [] t → sh.policies.Meets t I E
  replaceStatements : ∀ {policy rest t} statements, I (policy :: rest) t →
    (sh.replaceStatements policy statements).Meets t (fun _ => I rest) E
  attachMissing : ∀ {t} arn, I [] t → (sh.attachMissing arn).Meets t (fun _ => I []) E
  create : ∀ {t} name document, I [] t →
    (sh.store.create name (policyPath sh.settings.path) document).Meets t (fun _ => I []) E

/-- When the statements of a user are settled, a policy is found unless none has one. -/
theorem Guards.settle (h : Guards sh I E) (resource : List String)
    (holder : Option ManagedPolicy) (ht : I policies t) :
    (sh.settle userId resource holder policies).Meets t
      (fun found u => I [] u ∧ (found = none →
        holder = none ∧ Free userId (statementsIn policies))) E := by
  induction policies generalizing holder t with
  | nil => exact ⟨ht, fun hfound => ⟨hfound, by simp [Free, statementsIn]⟩⟩
  | cons policy rest ih =>
      have hrest := h.sublist (List.sublist_cons_self policy rest) ht
      set sifted := sift userId resource holder.isSome policy.document.statements with hsifted
      have hgo : ∀ {u}, I rest u → (sh.settle userId resource
          (holder.or (if sifted.found then some policy else none)) rest).Meets u
            (fun found v => I [] v ∧ (found = none →
              holder = none ∧ Free userId (statementsIn (policy :: rest)))) E := by
        intro u hu
        refine (ih _ hu).imp (fun found v hv => ⟨hv.1, fun hfound => ?_⟩) fun _ _ he => he
        obtain ⟨hholder, hfree⟩ := hv.2 hfound
        obtain ⟨rfl, hnone⟩ := Option.or_eq_none_iff.mp hholder
        rw [hsifted, sift_found] at hnone
        refine ⟨rfl, fun st hst => ?_⟩
        rw [statementsIn, List.flatMap_cons, List.mem_append] at hst
        rcases hst with hst | hst
        · simp at hnone
          exact hnone st hst
        · exact hfree st hst
      rw [Sharder.settle]
      split
      next => exact (h.replaceStatements _ ht).bind fun _ _ hu => hgo hu
      next => exact hgo (h.sublist (List.sublist_cons_self policy rest) ht)

theorem Guards.place (h : Guards sh I E) (statement : PolicyStatement) (ht : I policies t) :
    (sh.place statement policies).Meets t (fun _ => I []) E := by
  rw [Sharder.place]
  split
  next policy hroom =>
    have hpolicy : I [policy] t :=
      h.sublist (List.singleton_sublist.mpr (List.mem_of_find?_eq_some hroom)) ht
    exact (h.replaceStatements _ hpolicy).bind fun _ _ hu => hu
  next => exact (h.create _ _ (h.sublist (List.nil_sublist _) ht)).bind fun _ _ hu => hu

/-- Ensuring a user keeps the invariant. -/
theorem Guards.ensure (h : Guards sh I E) (user role : String) (ht : I [] t) :
    (sh.ensure user role).Meets t (fun _ => I []) E := by
  rw [Sharder.ensure]
  refine (h.policies ht).bind fun policies u hu => ?_
  by_cases hfree : Free (userIdOf user) (statementsIn policies)
  · rw [settle_of_free _ hfree]
    exact (h.place _ hu).bind fun arn v hv => h.attachMissing arn hv
  · refine (h.settle _ none hu).bind fun found v hv => ?_
    cases found with
    | none => exact absurd (hv.2 rfl).2 hfree
    | some policy => exact h.attachMissing policy.arn hv.1

/-- Removing a user keeps an invariant that the work on each policy keeps. -/
theorem remove_meets
    (hpolicies : ∀ {t}, I [] t → sh.policies.Meets t I E)
    (hremove : ∀ {policy rest t}, I (policy :: rest) t →
      (sh.removeFrom (userIdOf user) policy).Meets t (fun _ => I rest) E) (ht : I [] t) :
    (sh.remove user).Meets t (fun _ => I []) E := by
  rw [remove]
  refine (hpolicies ht).bind fun policies u hu => ?_
  clear ht
  induction policies generalizing u with
  | nil => exact hu
  | cons policy rest ih => exact (hremove hu).bind fun _ v hv => ih v hv

end Sharder

end PgSteward
