import PgSteward.Proofs.FlakyStore
import PgSteward.Proofs.ShardInvariants
import PgSteward.Proofs.ShardRepair
import PgSteward.Proofs.ShardRuns

/-!
# Versions that pile up

A policy gets another document in two calls: one creates a version, and one deletes the version that
was the default.  As long as no deletion is lost every policy has one version after every call
(`Steady`).  When one is lost the next attempt finds the document as it should be, and the version
stays for good (`Piled`).

So after calls from an empty store every policy has one version exactly when no deletion has been
lost (`single_versions_iff`), and `promotions_pile_up` is a run that comes to the limit.
-/

namespace PgSteward

open PolicyMemory Program

/-- Whether a request has nothing more to do about a document. -/
def ShardRequest.Settles : ShardRequest → PolicyDocument → Prop
  | .ensure _ _, _ => True
  | .remove user, document => Free (userIdOf user) document.statements

/-! ## While every policy has one version -/

namespace FlakyMemory

open Sharder

variable {faults : List (Option IamError)} {D : PolicyDocument → Prop} {f g : FlakyMemory}
  {c : NameMap StoredPolicy} {p : StoredPolicy} {arn : String} {policies : List ManagedPolicy}

/-- Whether every policy has one version, which is older than the next one. -/
def Tidy (contents : NameMap StoredPolicy) : Prop :=
  ∀ (arn : String) (p : StoredPolicy), contents[arn]? = some p →
    p.Numbered ∧ p.versions.length = 1

theorem Tidy.insert (h : Tidy c) (hp : p.Numbered) (hone : p.versions.length = 1) (arn : String) :
    Tidy (c.insert arn p) :=
  NameMap.forall_insert h ⟨hp, hone⟩ arn

theorem Tidy.erase (h : Tidy c) (arn : String) : Tidy (c.erase arn) := NameMap.forall_erase h arn

/-- Whether every policy has one version, and no deletion of a version has been lost.  Some policies
are shown as they are in the store, and the errors that calls are to return are among some given
ones. -/
structure Steady (faults : List (Option IamError)) (policies : List ManagedPolicy)
    (f : FlakyMemory) : Prop where
  tidy : Tidy f.memory.contents
  faults : f.faults ⊆ faults
  kept : ¬f.LostDeletion
  /-- The policies are shown with their default versions. -/
  shown : ∀ policy ∈ policies, ∃ p, f.memory.contents[policy.arn]? = some p ∧
    p.defaultVersion = policy.versionId
  distinct : (policies.map (·.arn)).Nodup

/-- Whether a deletion of a version has been lost, and a policy has more than one since.  Its
document is one that the call has dealt with. -/
structure Piled (D : PolicyDocument → Prop) (arn : String) (f : FlakyMemory) : Prop where
  lost : f.LostDeletion
  there : ∃ p, f.memory.contents[arn]? = some p ∧ p.Numbered ∧ 2 ≤ p.versions.length ∧
    D p.document

/-- What a call that has failed leaves, when every policy had one version before. -/
def Shaken (faults : List (Option IamError)) (D : PolicyDocument → Prop) (e : IamError)
    (f : FlakyMemory) : Prop :=
  (e = .misuse .tooManyVersions → some e ∈ faults) ∧
    (Steady faults [] f ∨ ∃ arn, Piled D arn f)

theorem Steady.sublist {policies' : List ManagedPolicy} (hf : Steady faults policies' f)
    (h : policies.Sublist policies') : Steady faults policies f :=
  ⟨hf.tidy, hf.faults, hf.kept, fun policy hpolicy => hf.shown policy (h.subset hpolicy),
    hf.distinct.sublist (h.map _)⟩

theorem Steady.quiet (hf : Steady faults policies f) (hg : f.Quiet g) :
    Steady faults policies g where
  tidy := by rw [hg.contents]; exact hf.tidy
  faults := List.Subset.trans hg.faults hf.faults
  kept := mt hg.lost.mp hf.kept
  shown := by rw [hg.contents]; exact hf.shown
  distinct := hf.distinct

/-- A policy has been changed, and is to be worked on no more. -/
theorem Steady.changed {policy : ManagedPolicy} (hf : Steady faults (policy :: policies) f)
    (htidy : Tidy g.memory.contents) (hfaults : g.faults ⊆ f.faults) (hkept : ¬g.LostDeletion)
    (hothers : ∀ other : String, other ≠ policy.arn →
      g.memory.contents[other]? = f.memory.contents[other]?) : Steady faults policies g := by
  have hdistinct := hf.distinct
  rw [List.map_cons, List.nodup_cons] at hdistinct
  refine ⟨htidy, List.Subset.trans hfaults hf.faults, hkept, fun other hother => ?_, hdistinct.2⟩
  have hne : other.arn ≠ policy.arn := fun he =>
    hdistinct.1 (he ▸ List.mem_map_of_mem hother)
  rw [hothers _ hne]
  exact hf.shown other (List.mem_cons_of_mem _ hother)

theorem Steady.shaken {e : IamError} (hf : Steady faults policies f) (hg : f.Quiet g)
    (he : f.Excuses e) : Shaken faults D e g :=
  ⟨fun h => hf.faults (he h), .inl ((hf.quiet hg).sublist (List.nil_sublist _))⟩

theorem Steady.calm {α : Type} {q : Program FlakyMemory IamError α} (hq : Calm q)
    (hf : Steady faults policies f) :
    q.Meets f (fun _ g => Steady faults policies g) (Shaken faults D) :=
  (hq f).imp (fun _ _ hg => hf.quiet hg) fun _ _ hg => hf.shaken hg.1 hg.2

/-- A call that fails changes attachments only. -/
theorem Steady.guarded_meets {α : Type} {call : PolicyCall}
    {q : Program PolicyMemory IamError α} {ok : α → PolicyMemory → Prop}
    (hf : Steady faults policies f) (hcall : ∀ arn versionId, call ≠ .deleteVersion arn versionId)
    (hq : q.Meets f.memory ok fun e n =>
      n.contents = f.memory.contents ∧ e ≠ .misuse .tooManyVersions) :
    (guarded call q).Meets f
      (fun a g => ok a g.memory ∧ (g.LostDeletion ↔ f.LostDeletion) ∧ g.faults ⊆ f.faults)
      (Shaken faults D) := by
  refine (FlakyMemory.guarded_meets hq).imp ?_ ?_
  · rintro a g ⟨hg, hmissed, hfaults⟩
    exact ⟨hg, lostDeletion_iff_of_eq hmissed, hfaults⟩
  · rintro e g ⟨hfaults, ⟨he, hsame, hmissed⟩ | ⟨⟨hsame, hlimit⟩, hmissed⟩⟩
    · exact hf.shaken ⟨by rw [hsame], hfaults, lostDeletion_iff_of_missed hcall hmissed⟩
        fun _ => he
    · exact hf.shaken ⟨hsame, hfaults, lostDeletion_iff_of_eq hmissed⟩ fun h => absurd h hlimit

variable {s : ShardSettings} {user : String} {rest : List ManagedPolicy} {policy : ManagedPolicy}

/-- A policy gets other statements in a version that takes the place of its default.  If the
deletion of the default is lost, the policy has two versions. -/
theorem Steady.replaceStatements_meets (statements : List PolicyStatement)
    (hf : Steady faults (policy :: rest) f) (hD : D { policy.document with statements }) :
    ((overFlaky s).replaceStatements policy statements).Meets f
      (fun _ g => Steady faults rest g) (Shaken faults D) := by
  obtain ⟨p, hp, hdefault⟩ := hf.shown policy (List.mem_cons_self ..)
  obtain ⟨hnumbered, hone⟩ := hf.tidy _ p hp
  set document : PolicyDocument := { policy.document with statements }
  rw [Sharder.replaceStatements]
  refine (hf.guarded_meets (by simp) ((createVersion_meets f.memory policy.arn document).imp
    (fun _ _ h => h) ?_)).bind ?_
  · rintro e n ⟨hsame, hlimit⟩
    refine ⟨hsame, fun he => ?_⟩
    obtain ⟨p', hp', hfull⟩ := hlimit he
    cases hp.symm.trans hp'
    rw [hone] at hfull
    cases (by decide : ¬versionLimit ≤ 1) hfull
  rintro _ g ⟨⟨p', hp', hg⟩, hlost, hfaults⟩
  cases hp.symm.trans hp'
  have hadded : g.memory.contents[policy.arn]? = some (p.addVersion document) := by
    rw [hg, Std.ExtTreeMap.getElem?_insert_self]
  refine (FlakyMemory.guarded_meets
    (deleteVersion_meets g.memory policy.arn policy.versionId)).imp ?_ ?_
  · rintro _ h ⟨⟨q, hq, -, hh⟩, hmissed, hfaults'⟩
    cases hadded.symm.trans hq
    rw [hg, NameMap.insert_insert, ← hdefault] at hh
    have hreplaced : h.memory.contents =
        f.memory.contents.insert policy.arn (p.replaced document) := hh
    refine hf.changed ?_ (List.Subset.trans hfaults' hfaults)
      (mt ((lostDeletion_iff_of_eq hmissed).trans hlost).mp hf.kept) fun other hne => ?_
    · rw [hreplaced]
      exact hf.tidy.insert (hnumbered.replaced document)
        ((StoredPolicy.length_replaced hnumbered.distinct hnumbered.default
          hnumbered.next_not_mem document).trans hone) _
    · rw [hreplaced, NameMap.getElem?_insert_of_ne _ hne]
  · rintro e h ⟨-, ⟨he, hsame, hmissed⟩ | ⟨⟨-, -, hnot⟩, -⟩⟩
    · refine ⟨fun _ => hf.faults (hfaults he), .inr ⟨policy.arn, ⟨policy.arn, policy.versionId, ?_⟩,
        p.addVersion document, hsame ▸ hadded, hnumbered.addVersion document, ?_, ?_⟩⟩
      · rw [hmissed]
        exact List.mem_cons_self ..
      · simp [StoredPolicy.addVersion, hone]
      · rw [StoredPolicy.document_addVersion hnumbered.next_not_mem]
        exact hD
    · have hsame : versionName p.nextVersion = p.defaultVersion :=
        (hnot _ hadded).trans hdefault.symm
      exact absurd hnumbered.default (hsame ▸ hnumbered.next_not_mem)

theorem Steady.policies_meets (s : ShardSettings) (hf : Steady faults [] f) :
    (overFlaky s).policies.Meets f (fun found g => Steady faults found g) (Shaken faults D) := by
  refine (overFlaky_policies s f).imp ?_ fun e g hg => hf.shaken hg.1 hg.2
  rintro found g ⟨hg, rfl⟩
  have hquiet := hf.quiet hg
  refine ⟨hquiet.tidy, hquiet.faults, hquiet.kept, fun policy hpolicy => ?_,
    arns_listed_nodup s f.memory⟩
  obtain ⟨p, hp, hmanaged⟩ := mem_listed hpolicy
  refine ⟨p.detached, by rw [hg.contents, getElem?_contents, hp]; rfl, ?_⟩
  rw [hmanaged]
  rfl

theorem Steady.create_meets (name path : String) (document : PolicyDocument)
    (hf : Steady faults [] f) : ((overFlaky s).store.create name path document).Meets f
      (fun _ g => Steady faults [] g) (Shaken faults D) := by
  refine (hf.guarded_meets (by simp) (PolicyMemory.create_meets f.memory name document)).imp ?_
    fun _ _ h => h
  rintro _ g ⟨⟨-, hg⟩, hlost, hfaults⟩
  refine ⟨?_, List.Subset.trans hfaults hf.faults, mt hlost.mp hf.kept, by simp, by simp⟩
  rw [hg]
  exact hf.tidy.insert (StoredPolicy.fresh_numbered name document) rfl _

/-- Ensuring a user leaves every policy with one version, unless the deletion of one is lost. -/
theorem guards_steady (s : ShardSettings) (faults : List (Option IamError)) (hD : ∀ d, D d) :
    Guards (overFlaky s) (Steady faults) (Shaken faults D) where
  sublist h hf := hf.sublist h
  policies hf := hf.policies_meets s
  replaceStatements statements hf := hf.replaceStatements_meets statements (hD _)
  attachMissing arn hf := hf.calm (calm_attachMissing arn)
  create name document hf := hf.create_meets name _ document

theorem Steady.discard_meets (hf : Steady faults (policy :: rest) f) :
    ((overFlaky s).discard policy.arn).Meets f (fun _ g => Steady faults rest g)
      (Shaken faults D) := by
  refine Sharder.discard_meets policy.arn (fun g hg => ?_) fun e g hg he => hf.shaken hg he
  have hquiet := hf.quiet hg
  have herased : ∀ {h : FlakyMemory}, h.memory.contents = g.memory.contents.erase policy.arn →
      h.missed = g.missed → h.faults ⊆ g.faults → Steady faults rest h := by
    intro h hh hmissed hfaults
    refine hquiet.changed (hh ▸ hquiet.tidy.erase _) hfaults
      (mt (lostDeletion_iff_of_eq hmissed).mp hquiet.kept) fun other hne => ?_
    rw [hh, Std.ExtTreeMap.getElem?_erase]
    simp [hne.symm]
  refine (FlakyMemory.guarded_meets (delete_meets g.memory policy.arn)).imp ?_ ?_
  · rintro _ h ⟨hh, hmissed, hfaults⟩
    exact herased hh hmissed hfaults
  · rintro e h ⟨hfaults, ⟨he, hsame, hmissed⟩ | ⟨⟨hsame | hh, hlimit⟩, hmissed⟩⟩
    · exact hquiet.shaken
        ⟨by rw [hsame], hfaults, lostDeletion_iff_of_missed (by simp) hmissed⟩ fun _ => he
    · exact hquiet.shaken ⟨hsame, hfaults, lostDeletion_iff_of_eq hmissed⟩
        fun h => absurd h hlimit
    · exact ⟨fun h => absurd h hlimit,
        .inl ((herased hh hmissed hfaults).sublist (List.nil_sublist _))⟩

theorem Steady.removeFrom_meets (user : String) (hf : Steady faults (policy :: rest) f) :
    ((overFlaky s).removeFrom (userIdOf user) policy).Meets f (fun _ g => Steady faults rest g)
      (Shaken faults (ShardRequest.remove user).Settles) := by
  rw [Sharder.removeFrom]
  split
  next => exact hf.sublist (List.sublist_cons_self policy rest)
  next =>
    split
    next => exact hf.discard_meets
    next => exact hf.replaceStatements_meets _ (free_filter_not _)

/-! ## Once a policy has more versions -/

theorem Piled.quiet (h : Piled D arn f) (hg : f.Quiet g) : Piled D arn g :=
  ⟨hg.lost.mpr h.lost, by rw [hg.contents]; exact h.there⟩

theorem Piled.calm {α : Type} {q : Program FlakyMemory IamError α} (hq : Calm q)
    (hf : Piled D arn f) : q.Meets f (fun _ g => Piled D arn g) fun _ g => Piled D arn g :=
  (hq f).imp (fun _ _ hg => hf.quiet hg) fun _ _ hg => hf.quiet hg.1

/-- A call that fails leaves the policy as it is. -/
theorem Piled.guarded_meets {α : Type} {call : PolicyCall} {q : Program PolicyMemory IamError α}
    {ok : α → PolicyMemory → Prop} (hf : Piled D arn f)
    (hq : q.Meets f.memory ok fun _ n => n.contents[arn]? = f.memory.contents[arn]?) :
    (guarded call q).Meets f (fun a g => ok a g.memory ∧ g.LostDeletion)
      fun _ g => Piled D arn g := by
  refine (FlakyMemory.guarded_meets hq).imp ?_ ?_
  · rintro a g ⟨hg, hmissed, -⟩
    exact ⟨hg, (lostDeletion_iff_of_eq hmissed).mpr hf.lost⟩
  · rintro e g ⟨-, ⟨-, hsame, hmissed⟩ | ⟨hg, hmissed⟩⟩
    · refine ⟨?_, by rw [hsame]; exact hf.there⟩
      obtain ⟨arn, versionId, hmem⟩ := hf.lost
      exact ⟨arn, versionId, hmissed ▸ List.mem_cons_of_mem _ hmem⟩
    · exact ⟨(lostDeletion_iff_of_eq hmissed).mpr hf.lost, by rw [hg]; exact hf.there⟩

/-- A call about another policy leaves the policy as it is. -/
theorem Piled.guarded_other {α : Type} {call : PolicyCall} {q : Program PolicyMemory IamError α}
    (hf : Piled D arn f) (hq : q.Meets f.memory
      (fun _ n => n.contents[arn]? = f.memory.contents[arn]?)
      fun _ n => n.contents[arn]? = f.memory.contents[arn]?) :
    (guarded call q).Meets f (fun _ g => Piled D arn g) fun _ g => Piled D arn g := by
  refine (hf.guarded_meets hq).imp ?_ fun _ _ h => h
  rintro _ g ⟨hg, hlost⟩
  exact ⟨hlost, by rw [hg]; exact hf.there⟩

/-- The policy gets another document in a version more, and at most one of the others goes. -/
theorem Piled.replaceStatements_meets (statements : List PolicyStatement) (hf : Piled D arn f)
    (hpolicy : policy.arn = arn) (hD : D { policy.document with statements }) :
    ((overFlaky s).replaceStatements policy statements).Meets f
      (fun _ g => Piled D arn g) fun _ g => Piled D arn g := by
  subst hpolicy
  obtain ⟨p, hp, hnumbered, hmany, -⟩ := hf.there
  set added := p.addVersion { policy.document with statements } with hadded
  have hdocument : added.document = { policy.document with statements } :=
    StoredPolicy.document_addVersion hnumbered.next_not_mem _
  have hlength : added.versions.length = p.versions.length + 1 := by
    simp [hadded, StoredPolicy.addVersion]
  have hnumbered' : added.Numbered := hnumbered.addVersion _
  rw [Sharder.replaceStatements]
  refine (hf.guarded_meets ((createVersion_meets f.memory policy.arn _).imp (fun _ _ h => h)
    fun e n h => by rw [h.1])).bind ?_
  rintro _ g ⟨⟨p', hp', hg⟩, hlost⟩
  cases hp.symm.trans hp'
  have hthere : g.memory.contents[policy.arn]? = some added := by
    rw [hg, Std.ExtTreeMap.getElem?_insert_self]
  have hpiled : Piled D policy.arn g :=
    ⟨hlost, added, hthere, hnumbered', by omega, hdocument ▸ hD⟩
  refine (hpiled.guarded_meets ((deleteVersion_meets g.memory policy.arn policy.versionId).imp
    (fun _ _ h => h) fun e n h => by rw [h.1])).imp ?_ fun _ _ h => h
  rintro _ h ⟨⟨q, hq, hother, hh⟩, hlost⟩
  cases hthere.symm.trans hq
  refine ⟨hlost, added.dropVersion policy.versionId,
    by rw [hh, Std.ExtTreeMap.getElem?_insert_self], hnumbered'.dropVersion hother, ?_, ?_⟩
  · have hdropped := StoredPolicy.length_dropVersion added policy.versionId
    have hcount := List.nodup_iff_count_le_one.mp hnumbered'.distinct policy.versionId
    omega
  · rw [StoredPolicy.document_dropVersion hother, hdocument]
    exact hD

/-- Another policy gets other statements. -/
theorem Piled.replaceStatements_other (statements : List PolicyStatement) (hf : Piled D arn f)
    (hpolicy : policy.arn ≠ arn) :
    ((overFlaky s).replaceStatements policy statements).Meets f
      (fun _ g => Piled D arn g) fun _ g => Piled D arn g := by
  have hsame : ∀ (held : NameMap StoredPolicy) (p : StoredPolicy),
      (held.insert policy.arn p)[arn]? = held[arn]? :=
    fun held => NameMap.getElem?_insert_of_ne held hpolicy.symm
  rw [Sharder.replaceStatements]
  refine (hf.guarded_other ((createVersion_meets f.memory policy.arn _).imp ?_ ?_)).bind
    fun _ g hg => hg.guarded_other ((deleteVersion_meets g.memory policy.arn _).imp ?_ ?_)
  · rintro _ n ⟨p, -, hn⟩
    rw [hn, hsame]
  · rintro e n ⟨hn, -⟩
    rw [hn]
  · rintro _ n ⟨p, -, -, hn⟩
    rw [hn, hsame]
  · rintro e n ⟨hn, -⟩
    rw [hn]

theorem Piled.policies_meets (s : ShardSettings) (hf : Piled D arn f) :
    (overFlaky s).policies.Meets f (fun found g => Piled D arn g ∧
      ∀ policy ∈ found, policy.arn = arn → D policy.document) fun _ g => Piled D arn g := by
  refine (overFlaky_policies s f).imp ?_ fun e g hg => hf.quiet hg.1
  rintro found g ⟨hg, rfl⟩
  refine ⟨hf.quiet hg, fun policy hpolicy harn => ?_⟩
  obtain ⟨p, hp, hmanaged⟩ := mem_listed hpolicy
  obtain ⟨q, hq, -, -, hD⟩ := hf.there
  rw [← harn, getElem?_contents, hp, Option.map_some, Option.some.injEq] at hq
  rw [hmanaged]
  subst hq
  exact hD

/-- Ensuring a user leaves a policy with more versions than one. -/
theorem guards_piled (s : ShardSettings) (arn : String) (hD : ∀ d, D d) :
    Guards (overFlaky s) (fun _ => Piled D arn) fun _ => Piled D arn where
  sublist _ hf := hf
  policies hf := (hf.policies_meets s).imp (fun _ _ h => h.1) fun _ _ h => h
  replaceStatements := by
    intro policy rest f statements hf
    by_cases hpolicy : policy.arn = arn
    · exact hf.replaceStatements_meets statements hpolicy (hD _)
    · exact hf.replaceStatements_other statements hpolicy
  attachMissing arn hf := hf.calm (calm_attachMissing arn)
  create name document hf := by
    refine hf.guarded_other ((PolicyMemory.create_meets _ name document).imp ?_ ?_)
    · rintro _ n ⟨hfree, hn⟩
      obtain ⟨p, hp, -⟩ := hf.there
      have hother : arn ≠ arnOf name := by
        rintro rfl
        cases hfree.symm.trans hp
      rw [hn, NameMap.getElem?_insert_of_ne _ hother]
    · rintro e n ⟨hn, -⟩
      rw [hn]

theorem Piled.discard_meets (hf : Piled D arn f) (hpolicy : policy.arn ≠ arn) :
    ((overFlaky s).discard policy.arn).Meets f (fun _ g => Piled D arn g)
      fun _ g => Piled D arn g := by
  refine Sharder.discard_meets policy.arn (fun g hg => ?_) fun e g hg _ => hf.quiet hg
  have herased : (g.memory.contents.erase policy.arn)[arn]? = g.memory.contents[arn]? := by
    rw [Std.ExtTreeMap.getElem?_erase]
    simp [hpolicy]
  refine (hf.quiet hg).guarded_other ((delete_meets g.memory policy.arn).imp ?_ ?_)
  · rintro _ n hn
    rw [hn, herased]
  · rintro e n ⟨hn | hn, -⟩
    · rw [hn]
    · rw [hn, herased]

/-- A policy that a user has been removed from already is left alone. -/
theorem Piled.removeFrom_meets (hf : Piled (ShardRequest.remove user).Settles arn f)
    (hpolicy : policy.arn = arn → (ShardRequest.remove user).Settles policy.document) :
    ((overFlaky s).removeFrom (userIdOf user) policy).Meets f
      (fun _ g => Piled (ShardRequest.remove user).Settles arn g)
      fun _ g => Piled (ShardRequest.remove user).Settles arn g := by
  by_cases harn : policy.arn = arn
  · rw [removeFrom_of_free _ (hpolicy harn)]
    exact hf
  rw [Sharder.removeFrom]
  split
  next => exact hf
  next =>
    split
    next => exact hf.discard_meets harn
    next => exact hf.replaceStatements_other _ harn

end FlakyMemory

/-! ## Requests for users -/

namespace Sharder

variable {s : ShardSettings} {faults : List (Option IamError)} {f g : FlakyMemory}
  {request : ShardRequest} {arn : String}

open FlakyMemory

/-- A request leaves every policy with one version, unless the deletion of one is lost. -/
theorem serve_steady (request : ShardRequest) (hf : Steady faults [] f) :
    ((overFlaky s).serve request).Meets f (fun _ => Steady faults [])
      (Shaken faults request.Settles) := by
  cases request with
  | ensure user role => exact (guards_steady s faults fun _ => trivial).ensure user role hf
  | remove user =>
      exact remove_meets (fun hf => hf.policies_meets s) (fun hf => hf.removeFrom_meets user) hf

/-- Once the deletion of a version has been lost, the other attempts leave the policy with its
versions. -/
theorem serve_piled (request : ShardRequest) (hf : Piled request.Settles arn f) :
    ((overFlaky s).serve request).Meets f (fun _ => Piled request.Settles arn)
      fun _ => Piled request.Settles arn := by
  cases request with
  | ensure user role => exact (guards_piled s arn fun _ => trivial).ensure user role hf
  | remove user =>
      -- The policies that are still to be worked on are shown as they were listed.
      refine (remove_meets (I := fun policies f => Piled (ShardRequest.remove user).Settles arn f ∧
        ∀ policy ∈ policies, policy.arn = arn →
          (ShardRequest.remove user).Settles policy.document)
        (fun hf => hf.1.policies_meets s) (fun hf => ?_) ⟨hf, by simp⟩).imp (fun _ _ h => h.1)
          fun _ _ h => h
      refine (hf.1.removeFrom_meets (hf.2 _ (List.mem_cons_self ..))).imp (fun _ _ h => ⟨h, ?_⟩)
        fun _ _ h => h
      exact fun policy hpolicy => hf.2 policy (List.mem_cons_of_mem _ hpolicy)

theorem retried_piled (hf : Piled request.Settles arn f)
    (h : Retried ((overFlaky s).serve request) f g) : Piled request.Settles arn g := by
  induction h with
  | start t => exact hf
  | again herror _ ih => exact ih ((serve_piled request hf).of_error herror)

/-- However often a request is tried, every policy has one version, or the deletion of one has been
lost and a policy has more since. -/
theorem retried_steady (hf : Steady faults [] f)
    (h : Retried ((overFlaky s).serve request) f g) :
    Steady faults [] g ∨ ∃ arn, Piled request.Settles arn g := by
  induction h with
  | start t => exact .inl hf
  | again herror hrest ih =>
      rcases ((serve_steady request hf).of_error herror).2 with hsteady | ⟨arn, hpiled⟩
      · exact ih hsteady
      · exact .inr ⟨arn, retried_piled hpiled hrest⟩

theorem repeated_steady (hf : Steady faults [] f)
    (h : Repeated ((overFlaky s).serve request) f g) :
    Steady faults [] g ∨ ∃ arn, Piled request.Settles arn g := by
  obtain ⟨u, hretried, hok⟩ := h
  rcases retried_steady hf hretried with hu | ⟨arn, hu⟩
  · exact .inl ((serve_steady request hu).of_ok hok)
  · exact .inr ⟨arn, (serve_piled request hu).of_ok hok⟩

/-- After every request every policy has one version, or after one of them the deletion of a version
has been lost and a policy has more. -/
theorem serves_steady {requests : List ShardRequest} {states : List FlakyMemory}
    (h : Serves (overFlaky s) f requests states) (hf : Steady faults [] f) :
    (∀ g ∈ states, Steady faults [] g) ∨
      ∃ g ∈ states, ∃ (request : ShardRequest) (arn : String), Piled request.Settles arn g := by
  induction h with
  | done t => exact .inl (by simp)
  | @served t u request rest states hserved _ ih =>
      rcases repeated_steady hf hserved with hu | ⟨arn, hpiled⟩
      · rcases ih hu with hall | ⟨g, hg, hpiled⟩
        · exact .inl (List.forall_mem_cons.mpr ⟨hu, hall⟩)
        · exact .inr ⟨g, List.mem_cons_of_mem _ hg, hpiled⟩
      · exact .inr ⟨u, List.mem_cons_self .., request, arn, hpiled⟩

end Sharder

namespace FlakyMemory

variable {faults : List (Option IamError)} {f : FlakyMemory} {D : PolicyDocument → Prop}
  {arn : String}

/-- Whether every policy has one version. -/
def Single (f : FlakyMemory) : Prop :=
  ∀ (arn : String) (p : StoredPolicy), f.memory.policies[arn]? = some p → p.versions.length = 1

theorem Steady.single (hf : Steady faults [] f) : f.Single := by
  intro arn p hp
  have hcontents : f.memory.contents[arn]? = some p.detached := by
    rw [getElem?_contents, hp]
    rfl
  exact (hf.tidy arn p.detached hcontents).2

theorem Piled.not_single (hf : Piled D arn f) : ¬f.Single := by
  intro hsingle
  obtain ⟨q, hq, -, hmany, -⟩ := hf.there
  rw [getElem?_contents, Option.map_eq_some_iff] at hq
  obtain ⟨p, hp, rfl⟩ := hq
  exact absurd (hsingle arn p hp) (Nat.ne_of_gt hmany)

/-- An empty store is as it should be, whatever calls are to fail. -/
theorem steady_empty (faults : List (Option IamError)) : Steady faults [] { faults } where
  tidy := by
    intro arn p hp
    simp [contents] at hp
  faults := List.Subset.refl _
  kept := by simp [LostDeletion]
  shown := by simp
  distinct := by simp

end FlakyMemory

/-- When requests are served from an empty store, each of them tried until it succeeds, every policy
has one version after every request exactly when no deletion of a version has been lost by then.  As
long as none is lost no attempt fails for too many versions, but with an error that a call was told
to return. -/
theorem Sharder.single_versions_iff (s : ShardSettings) (faults : List (Option IamError))
    (requests : List ShardRequest) (states : List FlakyMemory)
    (h : Serves (overFlaky s) { faults } requests states) :
    ((∀ f ∈ states, f.Single) ↔ ∀ f ∈ states, ¬f.LostDeletion) ∧
      ((∀ f ∈ states, ¬f.LostDeletion) → ∀ f ∈ ({ faults } : FlakyMemory) :: states,
        ∀ (request : ShardRequest) (g g' : FlakyMemory),
          Retried ((overFlaky s).serve request) f g →
          (overFlaky s).serve request g = .error (.misuse .tooManyVersions) g' →
          g'.LostDeletion ∨ some (.misuse .tooManyVersions) ∈ faults) := by
  have hstart := FlakyMemory.steady_empty faults
  have hsteady : (∀ f ∈ states, ¬f.LostDeletion) →
      ∀ f ∈ states, FlakyMemory.Steady faults [] f := by
    intro hkept
    rcases serves_steady h hstart with hall | ⟨f, hf, request, arn, hpiled⟩
    · exact hall
    · exact absurd hpiled.lost (hkept f hf)
  refine ⟨⟨fun hsingle => ?_, fun hkept f hf => (hsteady hkept f hf).single⟩,
    fun hkept f hf request g g' hretried herror => ?_⟩
  · rcases serves_steady h hstart with hall | ⟨f, hf, request, arn, hpiled⟩
    · exact fun f hf => (hall f hf).kept
    · exact absurd (hsingle f hf) hpiled.not_single
  · have hf : FlakyMemory.Steady faults [] f :=
      List.forall_mem_cons.mpr ⟨hstart, hsteady hkept⟩ f hf
    rcases retried_steady hf hretried with hg | ⟨arn, hg⟩
    · exact .inr (((serve_steady request hg).of_error herror).1 rfl)
    · exact .inl ((serve_piled request hg).of_error herror).lost

open ShardState (smallShard)

namespace FlakyMemory

theorem lostDeletion_iff {f : FlakyMemory} :
    f.LostDeletion ↔ ∃ call ∈ f.missed, call.word = "delete_policy_version" := by
  constructor
  · rintro ⟨arn, versionId, h⟩
    exact ⟨_, h, rfl⟩
  · rintro ⟨call, hcall, hword⟩
    cases call with
    | deleteVersion arn versionId => exact ⟨arn, versionId, hcall⟩
    | _ => simp [PolicyCall.word] at hword

instance (f : FlakyMemory) : Decidable f.LostDeletion := decidable_of_iff _ lostDeletion_iff.symm

end FlakyMemory

/-- An error that says nothing about policies. -/
def IamError.outage : IamError := .service (.unhandled none)

/-- An attachment fails, and later the creation of a version. -/
def FlakyMemory.bumpyFaults : List (Option IamError) :=
  [none, none, none, some .outage, none, none, none, none, some .outage]

/-- Alice is ensured as one role, then as another, and is removed. -/
def ShardRequest.comeAndGo : List ShardRequest :=
  [.ensure "alice" "alice", .ensure "alice" "bob", .remove "alice"]

/-- The requests are served although two calls fail.  Every policy has one version after each of
them, and no attempt at a further request fails for too many. -/
theorem Sharder.comeAndGo_single : ∃ states,
    Serves (overFlaky smallShard) { faults := FlakyMemory.bumpyFaults } ShardRequest.comeAndGo
      states ∧ states.length = 3 ∧ (∀ f ∈ states, f.missed ≠ [] ∧ ¬f.LostDeletion) ∧
      (∀ f ∈ states, f.Single) ∧
      ∀ f ∈ states, ∀ (request : ShardRequest) (g g' : FlakyMemory),
        Retried ((overFlaky smallShard).serve request) f g →
        (overFlaky smallShard).serve request g = .error (.misuse .tooManyVersions) g' →
        g'.LostDeletion := by
  obtain ⟨states, hserves, hall⟩ : ∃ states, Serves (overFlaky smallShard)
      { faults := FlakyMemory.bumpyFaults } ShardRequest.comeAndGo states ∧
      decide (states.length = 3 ∧ ∀ f ∈ states, f.missed ≠ [] ∧ ¬f.LostDeletion) = true :=
    exists_serves 2 (by decide +kernel)
  obtain ⟨hlength, hmissed⟩ := of_decide_eq_true hall
  have hkept : ∀ f ∈ states, ¬f.LostDeletion := fun f hf => (hmissed f hf).2
  obtain ⟨hiff, hlimit⟩ := single_versions_iff smallShard _ _ states hserves
  refine ⟨states, hserves, hlength, hmissed, hiff.mpr hkept,
    fun f hf request g g' hretried herror => ?_⟩
  exact (hlimit hkept f (List.mem_cons_of_mem _ hf) request g g' hretried herror).resolve_right
    (by decide)

/-- After a policy has been created four deletions of a version fail, each of them in the first
attempt at a request. -/
def FlakyMemory.lossyFaults : List (Option IamError) :=
  [none, none, none, none] ++
    (List.replicate 4 [none, none, some .outage, none, none]).flatten

/-- Alice is ensured as one role after the other. -/
def ShardRequest.promotions : List ShardRequest :=
  ["alice", "bob", "carol", "dave", "eve"].map (.ensure "alice")

/-- Every request is served, but a policy has two versions after the second one.  After the last one
it has five, so that no other role can be had, although no call is to fail any more. -/
theorem Sharder.promotions_pile_up : ∃ states,
    Serves (overFlaky smallShard) { faults := FlakyMemory.lossyFaults } ShardRequest.promotions
      states ∧
      (∃ f ∈ states, ∃ (arn : String) (p : StoredPolicy), f.memory.policies[arn]? = some p ∧
        p.versions.length = 2) ∧
      ∃ f ∈ states, f.faults = [] ∧ ∃ g, (overFlaky smallShard).serve (.ensure "alice" "frank") f =
        .error (.misuse .tooManyVersions) g := by
  set piled : FlakyMemory → Bool := fun f =>
    f.memory.policies.toList.any fun e => e.2.versions.length = 2 with hpiled
  set full : FlakyMemory → Bool := fun f => f.faults.isEmpty &&
    match (overFlaky smallShard).serve (.ensure "alice" "frank") f with
    | .ok _ _ => false
    | .error e _ => e = .misuse .tooManyVersions with hfull
  obtain ⟨states, hserves, hall⟩ : ∃ states, Serves (overFlaky smallShard)
      { faults := FlakyMemory.lossyFaults } ShardRequest.promotions states ∧
      (states.any piled && states.any full) = true := exists_serves 2 (by decide +kernel)
  rw [Bool.and_eq_true, List.any_eq_true, List.any_eq_true] at hall
  obtain ⟨⟨f, hf, htwo⟩, f', hf', hlimit⟩ := hall
  refine ⟨states, hserves, ⟨f, hf, ?_⟩, f', hf', ?_⟩
  · obtain ⟨⟨arn, p⟩, hp, hlength⟩ := List.any_eq_true.mp htwo
    exact ⟨arn, p, Std.ExtTreeMap.mem_toList_iff_getElem?_eq_some.mp hp,
      of_decide_eq_true hlength⟩
  · rw [hfull, Bool.and_eq_true] at hlimit
    obtain ⟨hfaults, herror⟩ := hlimit
    refine ⟨List.isEmpty_iff.mp hfaults, ?_⟩
    split at herror
    next => cases herror
    next e g hserve => exact ⟨g, of_decide_eq_true herror ▸ hserve⟩

end PgSteward
