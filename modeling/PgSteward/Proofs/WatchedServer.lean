import PgSteward.Proofs.RelatedWork

/-!
# Watching a server

Surroundings are watched when every statement that is run is recorded together with the surroundings
after it, whether it fails or not.  Nothing else is changed, so work in watched surroundings ends as
the same work does without anybody watching, and what holds after every single statement can be read
off the record.
-/

namespace PgSteward

open Program

variable {σ τ ε α : Type}

/-! ## Parts of surroundings -/

/-- A server that is a part of the surroundings. -/
def Server.onPart (part : σ → τ) (put : τ → σ → σ) (server : Server τ) : Server σ where
  connect := fun target => Program.onPart part put (server.connect target)
  execute := fun session statement => Program.onPart part put (server.execute session statement)
  ask := fun session query => Program.onPart part put (server.ask session query)
  close := fun session => Program.onPart part put (server.close session)

/-- A policy store that is a part of the surroundings. -/
def PolicyStore.onPart (part : σ → τ) (put : τ → σ → σ) (store : PolicyStore τ) :
    PolicyStore σ where
  list := fun path => Program.onPart part put (store.list path)
  create := fun name path document => Program.onPart part put (store.create name path document)
  createVersion := fun arn document => Program.onPart part put (store.createVersion arn document)
  deleteVersion := fun arn version => Program.onPart part put (store.deleteVersion arn version)
  attachedRoles := fun arn => Program.onPart part put (store.attachedRoles arn)
  attach := fun role arn => Program.onPart part put (store.attach role arn)
  detach := fun role arn => Program.onPart part put (store.detach role arn)
  delete := fun arn => Program.onPart part put (store.delete arn)

/-- Surroundings as a part of others. -/
def Surroundings.onPart (part : σ → τ) (put : τ → σ → σ) (around : Surroundings τ) :
    Surroundings σ where
  server := around.server.onPart part put
  resolver := ⟨fun kind space key => Program.onPart part put (around.resolver.read kind space key)⟩
  hostCredentials := fun space name => Program.onPart part put (around.hostCredentials space name)
  inventory := fun space => Program.onPart part put (around.inventory space)
  policies := around.policies.onPart part put
  kube := ⟨fun request => Program.onPart part put (around.kube.send request)⟩

/-! ## The record -/

/-- Surroundings with a record of the statements run, each with the surroundings after it. -/
structure Watched (σ : Type) where
  now : σ
  record : List (String × σ) := []

namespace Watched

/-- Puts other surroundings in the place of those that are watched. -/
def put (s : σ) (w : Watched σ) : Watched σ := { w with now := s }

/-- Puts the surroundings after a statement in the place of those that are watched. -/
def putAfter (statement : String) (s : σ) (w : Watched σ) : Watched σ :=
  ⟨s, w.record ++ [(statement, s)]⟩

/-- Whether surroundings are the ones watched and satisfy a condition, and all that has been
recorded satisfies another. -/
def Shows (I : σ → Prop) (J : String → σ → Prop) (s : σ) (w : Watched σ) : Prop :=
  w.now = s ∧ I s ∧ ∀ call ∈ w.record, J call.1 call.2

variable {I : σ → Prop} {J : String → σ → Prop} {p : Program σ ε α}

theorem Shows.weaken {s : σ} {w : Watched σ} (h : Shows I J s w) :
    Shows (fun _ => True) J s w :=
  ⟨h.1, trivial, h.2.2⟩

theorem related_onPart (h : ∀ s, I s → I (p.outcome s).2) :
    Related (Shows I J) p (onPart now put p) := by
  rintro s w ⟨rfl, hs, hrecord⟩
  rw [Agree, outcome_onPart]
  exact ⟨rfl, rfl, h w.now hs, hrecord⟩

theorem related_onPart_after {statement : String}
    (h : ∀ s, I s → I (p.outcome s).2 ∧ J statement (p.outcome s).2) :
    Related (Shows I J) p (onPart now (putAfter statement) p) := by
  rintro s w ⟨rfl, hs, hrecord⟩
  rw [Agree, outcome_onPart]
  refine ⟨rfl, rfl, (h w.now hs).1, ?_⟩
  intro call hcall
  rcases List.mem_append.mp hcall with hbefore | hlast
  · exact hrecord call hbefore
  · obtain rfl := List.mem_singleton.mp hlast
    exact (h w.now hs).2

end Watched

/-- A server that is watched. -/
def Server.watched (server : Server σ) : Server (Watched σ) :=
  { server.onPart Watched.now Watched.put with
    execute := fun session statement =>
      Program.onPart Watched.now (Watched.putAfter statement) (server.execute session statement) }

/-- Surroundings whose server is watched. -/
def Surroundings.watched (around : Surroundings σ) : Surroundings (Watched σ) :=
  { around.onPart Watched.now Watched.put with server := around.server.watched }

/-- What a program runs on watched surroundings. -/
def Watched.recordOf (p : Program (Watched σ) ε α) (start : σ) : List (String × σ) :=
  (p.outcome { now := start }).2.record

/-- What goes together with a program ends as it does, and what it has recorded satisfies the
condition on records. -/
theorem Watched.of_related {I : σ → Prop} {J : String → σ → Prop} {p : Program σ ε α}
    {q : Program (Watched σ) ε α} (h : Related (Shows I J) p q) (start : σ) (hstart : I start) :
    (q.outcome { now := start }).1 = (p.outcome start).1 ∧
      (q.outcome { now := start }).2.now = (p.outcome start).2 ∧ I (p.outcome start).2 ∧
      ∀ call ∈ recordOf q start, J call.1 call.2 := by
  obtain ⟨hsame, hnow, hafter, hrecord⟩ := h start { now := start } ⟨rfl, hstart, by simp⟩
  exact ⟨hsame.symm, hnow, hafter, hrecord⟩

end PgSteward
