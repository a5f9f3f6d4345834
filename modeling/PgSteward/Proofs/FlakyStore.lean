import PgSteward.Proofs.ShardMirror
import PgSteward.Rehearsal.Event

/-!
# A policy store whose calls may fail

`FlakyMemory.store` behaves like the store in memory, except that any call may return an error and
have no effect.  Which calls do is told beforehand, one entry for each call to come.

The work on attachments is `Calm`: whether it succeeds or not it changes attachments only, and it
keeps no deletion of a version from the store.
-/

namespace PgSteward

open PolicyMemory Program

/-- A policy store in memory whose calls may fail. -/
structure FlakyMemory where
  memory : PolicyMemory := {}
  /-- The errors that the calls to come return.  A call with none is made. -/
  faults : List (Option IamError) := []
  /-- The calls that returned such an error, the last one first. -/
  missed : List PolicyCall := []

namespace FlakyMemory

variable {α β : Type} {f g h : FlakyMemory}

/-- Makes a call unless it is to return an error. -/
def guarded (call : PolicyCall) (p : Program PolicyMemory IamError α) :
    Program FlakyMemory IamError α := fun f =>
  match f.faults with
  | some e :: faults => .error e { f with faults, missed := call :: f.missed }
  | _ => onPart (fun f => f.memory) (fun m f => { f with memory := m }) p
      { f with faults := f.faults.tail }

/-- The store as programs see it. -/
def store : PolicyStore FlakyMemory where
  list := fun path => guarded (.list path) (PolicyMemory.store.list path)
  create := fun name path document =>
    guarded (.create name path document) (PolicyMemory.store.create name path document)
  createVersion := fun arn document =>
    guarded (.createVersion arn document) (PolicyMemory.store.createVersion arn document)
  deleteVersion := fun arn versionId =>
    guarded (.deleteVersion arn versionId) (PolicyMemory.store.deleteVersion arn versionId)
  attachedRoles := fun arn => guarded (.attachedRoles arn) (PolicyMemory.store.attachedRoles arn)
  attach := fun role arn => guarded (.attach role arn) (PolicyMemory.store.attach role arn)
  detach := fun role arn => guarded (.detach role arn) (PolicyMemory.store.detach role arn)
  delete := fun arn => guarded (.delete arn) (PolicyMemory.store.delete arn)

/-- A call returns an error that it is to return, or is made. -/
theorem guarded_meets {call : PolicyCall} {p : Program PolicyMemory IamError α}
    {ok : α → PolicyMemory → Prop} {error : IamError → PolicyMemory → Prop}
    (hp : p.Meets f.memory ok error) :
    (guarded call p).Meets f
      (fun a g => ok a g.memory ∧ g.missed = f.missed ∧ g.faults ⊆ f.faults)
      fun e g => g.faults ⊆ f.faults ∧
        (some e ∈ f.faults ∧ g.memory = f.memory ∧ g.missed = call :: f.missed ∨
          error e g.memory ∧ g.missed = f.missed) := by
  have hmade : ∀ faults, faults ⊆ f.faults →
      (onPart (fun f : FlakyMemory => f.memory) (fun m f => { f with memory := m }) p).Meets
        { f with faults }
        (fun a g => ok a g.memory ∧ g.missed = f.missed ∧ g.faults ⊆ f.faults)
        fun e g => g.faults ⊆ f.faults ∧
          (some e ∈ f.faults ∧ g.memory = f.memory ∧ g.missed = call :: f.missed ∨
            error e g.memory ∧ g.missed = f.missed) := by
    intro faults hfaults
    refine (meets_onPart (s := { f with faults }) (fun f => f.memory)
      (fun m f => { f with memory := m }) hp).imp ?_ ?_
    · rintro a _ ⟨m, hm, rfl⟩
      exact ⟨hm, rfl, hfaults⟩
    · rintro e _ ⟨m, hm, rfl⟩
      exact ⟨hfaults, .inr ⟨hm, rfl⟩⟩
  rw [Meets, guarded]
  cases hfaults : f.faults with
  | nil =>
      have h := hmade [] (List.nil_subset _)
      rwa [hfaults] at h
  | cons first rest =>
      have hrest : rest ⊆ first :: rest := List.subset_cons_self ..
      cases first with
      | none =>
          have h := hmade rest (hfaults ▸ hrest)
          rwa [hfaults] at h
      | some e => exact ⟨hrest, .inl ⟨List.mem_cons_self .., rfl, rfl⟩⟩

/-! ## Calls that change attachments only -/

/-- Whether an error has kept the deletion of a version from the store. -/
def LostDeletion (f : FlakyMemory) : Prop :=
  ∃ arn versionId, PolicyCall.deleteVersion arn versionId ∈ f.missed

/-- Whether a store differs from an earlier one in attachments only, as far as versions go. -/
structure Quiet (f g : FlakyMemory) : Prop where
  contents : g.memory.contents = f.memory.contents
  faults : g.faults ⊆ f.faults
  lost : g.LostDeletion ↔ f.LostDeletion

theorem Quiet.refl (f : FlakyMemory) : f.Quiet f := ⟨rfl, List.Subset.refl _, Iff.rfl⟩

theorem Quiet.trans (hg : f.Quiet g) (hh : g.Quiet h) : f.Quiet h :=
  ⟨hh.contents.trans hg.contents, List.Subset.trans hh.faults hg.faults, hh.lost.trans hg.lost⟩

/-- Whether an error that says that a policy has too many versions is one that a call is to
return. -/
def Excuses (f : FlakyMemory) (e : IamError) : Prop :=
  e = .misuse .tooManyVersions → some e ∈ f.faults

theorem Excuses.of_subset {e : IamError} (hg : g.Excuses e) (h : g.faults ⊆ f.faults) :
    f.Excuses e := fun he => h (hg he)

/-- Whether a program changes attachments only, and never finds too many versions. -/
def Calm (p : Program FlakyMemory IamError α) : Prop :=
  ∀ f, p.Meets f (fun _ g => f.Quiet g) fun e g => f.Quiet g ∧ f.Excuses e

theorem calm_pure (a : α) : Calm (pure a : Program FlakyMemory IamError α) :=
  fun f => Quiet.refl f

theorem Calm.bind {p : Program FlakyMemory IamError α} {q : α → Program FlakyMemory IamError β}
    (hp : Calm p) (hq : ∀ a, Calm (q a)) : Calm (p >>= q) := by
  intro f
  refine (hp f).bind fun a g hg => (hq a g).imp (fun _ _ hh => hg.trans hh) ?_
  rintro e h ⟨hh, he⟩
  exact ⟨hg.trans hh, he.of_subset hg.faults⟩

theorem calm_sequence {ps : List (Program FlakyMemory IamError Unit)} (h : ∀ p ∈ ps, Calm p) :
    Calm (Program.sequence ps) := by
  induction ps with
  | nil => exact calm_pure ()
  | cons p rest ih =>
      exact (h p (List.mem_cons_self ..)).bind fun _ =>
        ih fun q hq => h q (List.mem_cons_of_mem _ hq)

/-- A missed call that is not the deletion of a version makes no difference to the lost ones. -/
theorem lostDeletion_iff_of_missed {call : PolicyCall}
    (hcall : ∀ arn versionId, call ≠ .deleteVersion arn versionId)
    (h : g.missed = call :: f.missed) : g.LostDeletion ↔ f.LostDeletion := by
  have hmem : ∀ arn versionId, PolicyCall.deleteVersion arn versionId ∈ g.missed ↔
      PolicyCall.deleteVersion arn versionId ∈ f.missed := by
    intro arn versionId
    rw [h, List.mem_cons]
    exact or_iff_right (hcall arn versionId).symm
  simp only [LostDeletion, hmem]

theorem lostDeletion_iff_of_eq (h : g.missed = f.missed) : g.LostDeletion ↔ f.LostDeletion := by
  rw [LostDeletion, LostDeletion, h]

theorem calm_guarded {call : PolicyCall} {p : Program PolicyMemory IamError α}
    (hcall : ∀ arn versionId, call ≠ .deleteVersion arn versionId) (hp : Minor p) :
    Calm (guarded call p) := by
  intro f
  refine (guarded_meets (hp f.memory)).imp ?_ ?_
  · rintro a g ⟨hg, hmissed, hfaults⟩
    exact ⟨hg, hfaults, lostDeletion_iff_of_eq hmissed⟩
  · rintro e g ⟨hfaults, ⟨he, hsame, hmissed⟩ | ⟨⟨hsame, hlimit⟩, hmissed⟩⟩
    · exact ⟨⟨by rw [hsame], hfaults, lostDeletion_iff_of_missed hcall hmissed⟩, fun _ => he⟩
    · exact ⟨⟨hsame, hfaults, lostDeletion_iff_of_eq hmissed⟩, fun h => absurd h hlimit⟩

end FlakyMemory

namespace Sharder

open FlakyMemory

/-- The shard over a store whose calls may fail. -/
def overFlaky (s : ShardSettings) : Sharder FlakyMemory := ⟨FlakyMemory.store, s⟩

variable {s : ShardSettings} {f : FlakyMemory}

/-- The policies are those of the store. -/
theorem overFlaky_policies (s : ShardSettings) (f : FlakyMemory) :
    (overFlaky s).policies.Meets f (fun found g => f.Quiet g ∧ found = listed s f.memory)
      fun e g => f.Quiet g ∧ f.Excuses e := by
  have hcalm : Calm ((overFlaky s).store.list (policyPath s.path)) :=
    calm_guarded (by simp) minor_list
  have hlist : list.Meets f.memory
      (fun found _ => found = f.memory.policies.toList.map fun e => e.2.managed e.1)
      fun _ _ => True := meets_of_ok (list_run f.memory) rfl
  have hfound : ((overFlaky s).store.list (policyPath s.path)).Meets f
      (fun found _ => found = f.memory.policies.toList.map fun e => e.2.managed e.1)
      fun _ _ => True := (guarded_meets hlist).imp (fun _ _ h => h.1) fun _ _ _ => trivial
  refine ((hcalm f).and hfound).imp (fun _ _ h => h) (fun _ _ h => h.1) |>.bind ?_
  rintro found g ⟨hg, rfl⟩
  exact ⟨hg, rfl⟩

theorem calm_attachMissing (arn : String) : Calm ((overFlaky s).attachMissing arn) := by
  refine (calm_guarded (by simp) (minor_attachedRoles arn)).bind fun attached =>
    calm_sequence fun call hcall => ?_
  obtain ⟨role, -, rfl⟩ := List.mem_map.mp hcall
  exact calm_guarded (by simp) (minor_attach role arn)

theorem calm_release (arn role : String) : Calm ((overFlaky s).release arn role) := by
  intro f
  have hdetach : Calm ((overFlaky s).store.detach role arn) :=
    calm_guarded (by simp) (minor_detach role arn)
  refine (meets_attempt (hdetach f)).bind fun r g hg => ?_
  match r with
  | .ok () => exact hg
  | .error (.noSuchEntity _) => exact hg.1
  | .error (.service _) => exact hg
  | .error (.document ..) => exact hg
  | .error (.encoding ..) => exact hg
  | .error (.incomplete ..) => exact hg
  | .error (.misuse _) => exact hg

/-- What is left to do when a policy is discarded, once it has been detached from its roles, is to
delete it. -/
theorem discard_meets {ok : Unit → FlakyMemory → Prop} {error : IamError → FlakyMemory → Prop}
    (arn : String) (hdelete : ∀ g, f.Quiet g → ((overFlaky s).store.delete arn).Meets g ok error)
    (herror : ∀ e g, f.Quiet g → f.Excuses e → error e g) :
    ((overFlaky s).discard arn).Meets f ok error := by
  have hcalm : Calm (do
      let roles ← (overFlaky s).store.attachedRoles arn
      Program.sequence (roles.map ((overFlaky s).release arn))) := by
    refine (calm_guarded (by simp) (minor_attachedRoles arn)).bind fun roles =>
      calm_sequence fun call hcall => ?_
    obtain ⟨role, -, rfl⟩ := List.mem_map.mp hcall
    exact calm_release arn role
  have hdiscard : (overFlaky s).discard arn = (do
      (do
        let roles ← (overFlaky s).store.attachedRoles arn
        Program.sequence (roles.map ((overFlaky s).release arn)))
      (overFlaky s).store.delete arn) := by
    rw [discard, bind_assoc]
  rw [hdiscard]
  exact ((hcalm f).imp (fun _ _ hg => hg) fun e g hg => herror e g hg.1 hg.2).bind
    fun _ g hg => hdelete g hg

end Sharder

/-! ## Requests for users -/

/-- A request to the shard for a user. -/
inductive ShardRequest where
  /-- Ensures that a user can connect as a role. -/
  | ensure (user role : String)
  | remove (user : String)
deriving DecidableEq, Repr

namespace Sharder

variable {σ : Type} {sh : Sharder σ}

/-- Does what is requested. -/
def serve (sh : Sharder σ) : ShardRequest → Program σ IamError Unit
  | .ensure user role => sh.ensure user role
  | .remove user => sh.remove user

/-- Requests are served one after the other, each of them again and again until it succeeds.  The
states are those after the successes. -/
inductive Serves (sh : Sharder σ) : σ → List ShardRequest → List σ → Prop
  | done (t : σ) : Serves sh t [] []
  | served {t u : σ} {request : ShardRequest} {rest : List ShardRequest} {states : List σ} :
      Repeated (sh.serve request) t u → Serves sh u rest states →
      Serves sh t (request :: rest) (u :: states)

/-- Serves requests one after the other, each of them with a number of attempts. -/
def serveAll (sh : Sharder σ) (attempts : Nat) : σ → List ShardRequest → Option (List σ)
  | _, [] => some []
  | t, request :: rest => do
      let u ← retry (sh.serve request) attempts t
      return u :: (← serveAll sh attempts u rest)

theorem serves_of_serveAll {attempts : Nat} {requests : List ShardRequest} {t : σ}
    {states : List σ} (h : serveAll sh attempts t requests = some states) :
    Serves sh t requests states := by
  induction requests generalizing t states with
  | nil =>
      cases h
      exact .done t
  | cons request rest ih =>
      rw [serveAll, Option.bind_eq_bind, Option.bind_eq_some_iff] at h
      obtain ⟨u, hu, h⟩ := h
      rw [Option.bind_eq_bind, Option.bind_eq_some_iff] at h
      obtain ⟨later, hlater, h⟩ := h
      cases h
      exact .served (repeated_of_retry hu) (ih hlater)

/-- Requests that are served within a number of attempts are served, with states that say what the
attempts say. -/
theorem exists_serves (attempts : Nat) {requests : List ShardRequest} {t : σ}
    {P : List σ → Bool} (h : (serveAll sh attempts t requests).any P = true) :
    ∃ states, Serves sh t requests states ∧ P states = true := by
  cases hstates : serveAll sh attempts t requests with
  | none =>
      rw [hstates] at h
      cases h
  | some states =>
      rw [hstates] at h
      exact ⟨states, serves_of_serveAll hstates, h⟩

end Sharder

end PgSteward
