import PgSteward.Proofs.SealedStatements
import PgSteward.Rehearsal.World

/-!
# Databases in rehearsals

In a rehearsal the Kubernetes API holds the resource of a database while the database is made.  When
texts and host credentials are held by the world, making it asks the API for nothing.  So the
objects of the API stay as they are, and so do the faults that hit requests to it
(`keeps_api_provideDatabase`).
-/

namespace PgSteward

open Program

/-- A fault that hits a call leaves the faults for other calls as they are. -/
theorem Fault.filter_strike {point other : FaultPoint} (h : point ≠ other) {detail : String}
    {faults : List Fault} {found : Fault × List Fault}
    (hstrike : Fault.strike point detail faults = some found) :
    found.2.filter (·.point = other) = faults.filter (·.point = other) := by
  induction faults generalizing found with
  | nil => cases hstrike
  | cons f rest ih =>
      unfold Fault.strike at hstrike
      split at hstrike
      next hhits =>
        cases hstrike
        have hpoint : f.point = point := by
          simp only [hits, Bool.and_eq_true, decide_eq_true_eq] at hhits
          exact hhits.1.2
        have hother : ¬f.point = other := hpoint ▸ h
        simp [hother]
      next =>
        obtain ⟨found, hfound, rfl⟩ := Option.map_eq_some_iff.mp hstrike
        simp only [List.filter_cons, ih hfound]

namespace World

variable {ε α : Type} {point : FaultPoint} {detail host : String}

/-- The Kubernetes API: its objects, and the faults that hit requests to it. -/
def api (w : World) : KubeStore × List Fault := (w.kube, w.faults.filter (·.point = .kube))

theorem keeps_api_strike (h : point ≠ .kube) :
    Keeps api (strike point detail : Program World ε (Option Fault)) := by
  intro w
  cases hstrike : Fault.strike point detail w.faults with
  | none => simp [outcome, strike, hstrike]
  | some found => simp [outcome, strike, hstrike, api, Fault.filter_strike h hstrike]

theorem keeps_api_guarded (h : point ≠ .kube) {failure : Fault → ε} {call : Program World ε α}
    (hcall : Keeps api call) : Keeps api (guarded point detail failure call) := by
  refine keeps_bind (keeps_api_strike h) fun found => ?_
  cases found with
  | none => exact hcall
  | some f => exact keeps_throw _

theorem keeps_api_record (e : Event) : Keeps api (record e : Program World ε Unit) := fun _ => rfl

theorem keeps_api_recorded {event : Option String → Event} {call : Program World SqlError α}
    (hcall : Keeps api call) : Keeps api (recorded event call) := by
  refine keeps_bind (keeps_attempt hcall) fun result => ?_
  cases result with
  | ok a => exact keeps_bind (keeps_api_record _) fun _ => keeps_pure a
  | error e => exact keeps_bind (keeps_api_record _) fun _ => keeps_throw e

theorem keeps_api_onCluster (p : Program Cluster ε α) : Keeps api (onCluster host p) := by
  intro w
  rw [onCluster, outcome_onPart]
  rfl

/-- No call of a server has to do with the Kubernetes API. -/
theorem related_server (v : KubeStore × List Fault) :
    server.Related (fun s t => s = t ∧ api s = v) (fun _ => True) server := by
  have hcall {point : FaultPoint} {detail host : String} {β : Type}
      {event : Option String → Event} {p : Program Cluster SqlError β} (h : point ≠ .kube) :
      Related (fun s t => s = t ∧ api s = v)
        (recorded event (guarded point detail Fault.sqlError (onCluster host p)))
        (recorded event (guarded point detail Fault.sqlError (onCluster host p))) :=
    keeps_iff.mp (keeps_api_recorded (keeps_api_guarded h (keeps_api_onCluster p))) v
  exact ⟨fun _ => hcall nofun, fun _ _ _ => hcall nofun, fun _ _ => hcall nofun,
    fun _ => hcall nofun⟩

theorem keeps_api_heldCredentials (space name : String) :
    Keeps api (heldCredentials space name) := by
  have hpoint : FaultPoint.hostCredentials ≠ .kube := nofun
  exact keeps_api_guarded hpoint fun _ => rfl

theorem keeps_api_read (kind : HolderKind) (space : String) (k : KeyOf) :
    Keeps api (resolver.read kind space k) := by
  intro w
  show api ((Program.ofExcept (w.texts.read kind space k)).outcome w).2 = api w
  exact keeps_ofExcept _ w

/-- To make a database leaves the Kubernetes API as it is. -/
theorem keeps_api_provideDatabase (settings : Settings) (policies : PolicyBackend) (now : Instant)
    (space : String) (spec : DatabaseSpec) :
    Keeps api
      ((settings.services (surroundings .memory policies) now).provideDatabase space spec) := by
  refine keeps_iff.mpr fun v => ?_
  have hselector : (settings.selector (surroundings .memory policies)).Related
      (fun s t => s = t ∧ api s = v) (settings.selector (surroundings .memory policies)) :=
    ⟨rfl, fun space name => keeps_iff.mp (keeps_api_heldCredentials space name) v,
      fun kind space k => keeps_iff.mp (keeps_api_read kind space k) v⟩
  unfold Services.provideDatabase
  split
  · exact related_throw _
  · refine related_bind hselector.select fun found => related_bind
      (Services.related_ownerName hselector space spec) fun user => related_bind
      (Services.related_require hselector space _ _) fun password => related_bind
      (related_mapError ?_) fun _ => related_pure _
    exact Provisioner.related_provide ((related_server v).imp fun _ _ => trivial) _ _ _

end World

end PgSteward
