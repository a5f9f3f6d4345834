import PgSteward.Proofs.RehearsedDatabases
import PgSteward.Proofs.WireForms

/-!
# Statuses of databases

The status of a stored database is read, compared and written by merge patches.  Such a patch has a
text for every member of a status, so what is read after it is the status that was written, whatever
was stored before and even if there was no status (`DatabaseStatus.decode_merge`).  The rest of the
resource stays as it is (`toDatabase_merge`).

A look at a database writes a status exactly if something in it besides its time changes
(`Services.reconcileDatabase_of_attempts`).  In a rehearsal every look is an attempt
(`Services.attempts_rehearsed`).  A database is looked at time and again, and between two looks
anything may happen that leaves the status alone (`DatabaseCourse`).  The stored status follows the
attempts (`DatabaseCourse.status_follows_attempts`).
-/

namespace PgSteward

/-! ## Merge patches -/

namespace Json

theorem find?_mergeMember (target : JsonMembers) {name : String} {value : Json}
    (hvalue : value.isNull = false) (other : String) :
    (mergeMember target (name, value)).find? other =
      if name = other then some (merge ((target.find? name).getD .null) value)
      else target.find? other := by
  rw [mergeMember, if_neg (by simp [hvalue]), JsonMembers.find?_put]

/-- A merge patch of texts sets its members and leaves the others. -/
theorem find?_mergeMembers_of_texts {changes : JsonMembers}
    (names : (changes.map Prod.fst).Nodup) (htexts : ∀ m ∈ changes, ∃ s, m.2 = .text s)
    (target : JsonMembers) (name : String) :
    (mergeMembers target changes).find? name = (changes.find? name).or (target.find? name) := by
  induction changes generalizing target with
  | nil => rfl
  | cons m rest ih =>
      obtain ⟨n, value⟩ := m
      obtain ⟨⟨s, rfl⟩, hrest⟩ := List.forall_mem_cons.mp htexts
      rw [List.map_cons, List.nodup_cons] at names
      rw [mergeMembers, ih names.2 hrest, find?_mergeMember target rfl, JsonMembers.find?]
      split
      next h =>
        subst h
        rw [JsonMembers.find?_eq_none_of_fresh names.1]
        rfl
      next => rfl

end Json

/-! ## Slots of what decodes -/

/-- A required member whose value counts is there without a fault. -/
theorem Record.required_of_get {α : Type} {r : Record} {place : Nat} {name : String}
    {decode : Decoder α} {a : α} (h : (r.required place name decode).get = .ok a) :
    r.required place name decode = ⟨name, some a, none, none⟩ := by
  unfold Slot.get at h
  unfold Record.required Record.slot at h ⊢
  cases hsource : r.source? place name with
  | none => simp [hsource] at h
  | some j =>
      cases hdecode : decode j with
      | error e => simp [hsource, hdecode] at h
      | ok b => simpa [hsource, hdecode] using h

/-! ## Statuses -/

namespace DatabaseStatus

/-- What a status says, besides its time. -/
structure Content where
  phase : Option Phase
  host : String
  user : String
  error : String
deriving DecidableEq

/-- What a status says, besides its time. -/
def content (s : DatabaseStatus) : Content := ⟨s.phase, s.host, s.user, s.error⟩

/-- The host and the owning role that a status says. -/
def provided (s : Option DatabaseStatus) : Provided := ⟨(s.getD {}).host, (s.getD {}).user⟩

theorem differs_iff (next : DatabaseStatus) (previous : Option DatabaseStatus) :
    next.differs previous = true ↔ previous.map content ≠ some next.content := by
  cases previous with
  | none => simp [differs]
  | some p => simp [differs, content, imp_iff_not_or, or_assoc]

/-- A status with a phase and a time is read as it was written, whatever was there before. -/
theorem decode_merge {s : DatabaseStatus} {p : Phase} {t : Instant} (hphase : s.phase = some p)
    (htime : s.phaseUpdated = some t) (hdates : Instant.hasDates t.year = true) (before : Json) :
    decode (before.merge s.encode) = .ok s := by
  obtain ⟨_, _, host, user, error⟩ := s
  subst hphase htime
  refine decode_members Json.reorders_id (by simpa [instants] using hdates) fun name hname => ?_
  rw [Json.find?_mergeMembers_of_texts]
  · simp only [Option.map_id, id]
    simp only [List.mem_cons, List.not_mem_nil, or_false] at hname
    obtain rfl | rfl | rfl | rfl | rfl := hname <;>
      simp [encode, Json.members]
  · simp [written, writtenIf]
  · simp only [List.forall_mem_append, JsonMembers.forall_mem_writtenIf,
      JsonMembers.forall_mem_written]
    exact ⟨⟨⟨⟨fun _ _ => ⟨_, rfl⟩, fun _ _ => ⟨_, rfl⟩⟩, _, rfl⟩, _, rfl⟩, _, rfl⟩

end DatabaseStatus

/-- Metadata and specification of a database are members of its object. -/
theorem required_of_toDatabase {ms : JsonMembers} {r : DatabaseResource}
    (h : toDatabase (.object ms) = .ok r) :
    (Record.byName ms).required 0 "metadata" ObjectMeta.decode =
        ⟨"metadata", some r.metadata, none, none⟩ ∧
      (Record.byName ms).required 1 "spec" DatabaseSpec.decode =
        ⟨"spec", some r.spec, none, none⟩ := by
  simp only [toDatabase, Resource.decode, Record.of, Program.except_bind_eq_ok_iff,
    Except.ok.injEq, exists_eq_left'] at h
  obtain ⟨-, -, metadata, hmetadata, spec, hspec, hr⟩ := h
  cases hr
  exact ⟨Record.required_of_get hmetadata, Record.required_of_get hspec⟩

/-- A database has the status that a merge patch writes, and is else as it was. -/
theorem toDatabase_merge {ms : JsonMembers} {r : DatabaseResource} {s : DatabaseStatus} {p : Phase}
    {t : Instant} (h : toDatabase (.object ms) = .ok r) (hphase : s.phase = some p)
    (htime : s.phaseUpdated = some t) (hdates : Instant.hasDates t.year = true) :
    ∃ ns, (Json.object ms).merge s.patch = .object ns ∧
      toDatabase (.object ns) = .ok { r with status := some s } := by
  obtain ⟨hmetadata, hspec⟩ := required_of_toDatabase h
  let before := (ms.find? "status").getD .null
  refine ⟨ms.put "status" (before.merge s.encode), rfl, ?_⟩
  generalize hns : ms.put "status" (before.merge s.encode) = ns
  have hfind (name : String) :
      ns.find? name = if "status" = name then some (before.merge s.encode) else ms.find? name := by
    rw [← hns, JsonMembers.find?_put]
  have hsame (place : Nat) (name : String) {α : Type} (decode : Decoder α) (h : "status" ≠ name) :
      (Record.byName ns).required place name decode =
        (Record.byName ms).required place name decode := by
    simp only [Record.required, Record.slot, Record.source?, Record.absent, hfind, if_neg h]
  have hstatus : Json.nullable DatabaseStatus.decode (before.merge s.encode) = .ok (some s) :=
    Json.nullable_of_ok ⟨_, rfl⟩ (DatabaseStatus.decode_merge hphase htime hdates before)
  have hslot := Record.optional_of_find 2 ((hfind "status").trans (if_pos rfl)) hstatus
  rw [← hsame 0 "metadata" _ (by decide)] at hmetadata
  rw [← hsame 1 "spec" _ (by decide)] at hspec
  simp [toDatabase, Resource.decode, Record.of, bind, Except.bind, pure, Except.pure, hmetadata,
    hspec, hslot, Slot.faults, Record.check_of_no_faults]

/-! ## The Kubernetes API -/

namespace World

/-- Whether every request reaches the Kubernetes API. -/
def HearsRequests (w : World) : Prop := ∀ f ∈ w.faults, f.point ≠ .kube

theorem hearsRequests_iff {w : World} : w.HearsRequests ↔ w.api.2 = [] := by
  simp [HearsRequests, api]

theorem strike_eq_none {point : FaultPoint} {faults : List Fault}
    (h : ∀ f ∈ faults, f.point ≠ point) (detail : String) :
    Fault.strike point detail faults = none := by
  induction faults with
  | nil => rfl
  | cons f rest ih =>
      obtain ⟨hf, hrest⟩ := List.forall_mem_cons.mp h
      rw [Fault.strike, if_neg (by simp [Fault.hits, hf]), ih hrest, Option.map_none]

theorem HearsRequests.send {w : World} (h : w.HearsRequests) (request : KubeRequest) :
    kubeClient.send request w = .ok (w.kube.answer request).1
      { w with
        kube := (w.kube.answer request).2
        events := w.events ++ [.kube request (w.kube.answer request).1.status] } := by
  have hstrike : (strike .kube request.render : Program World KubeError _) w = .ok none w := by
    simp only [strike, strike_eq_none h]
  have hrespond : (respond request : Program World KubeError _) w = answer request w := by
    rw [respond, Program.bind_of_ok hstrike]
  simp only [kubeClient]
  rw [Program.bind_of_ok (hrespond.trans rfl)]
  rfl

/-- Whether the Kubernetes API holds a database resource. -/
structure Holds (w : World) (space name : String) (r : DatabaseResource) : Prop where
  key : r.metadata.key = .ok (space, name)
  stored : ∃ ms, w.kube.objects[KubeKind.database.path space name]? = some (.object ms) ∧
    toDatabase (.object ms) = .ok r

/-- A world with the same Kubernetes API holds the same. -/
theorem Holds.of_api {w u : World} {space name : String} {r : DatabaseResource}
    (h : w.Holds space name r) (hapi : u.api = w.api) : u.Holds space name r := by
  have hkube : u.kube = w.kube := congrArg Prod.fst hapi
  exact ⟨h.key, hkube ▸ h.stored⟩

theorem Holds.unique {w : World} {space name : String} {r r' : DatabaseResource}
    (h : w.Holds space name r) (h' : w.Holds space name r') : r = r' := by
  obtain ⟨ms, hms, hr⟩ := h.stored
  obtain ⟨ms', hms', hr'⟩ := h'.stored
  rw [hms] at hms'
  cases hms'
  rw [hr] at hr'
  cases hr'
  rfl

/-- The request that writes the status of a database. -/
def statusRequest (space name : String) (s : DatabaseStatus) : KubeRequest :=
  .mergeStatus .database space name s.patch

/-- Writing a status with a phase and a time succeeds, and it is the status then. -/
theorem Holds.merge {w : World} {space name : String} {r : DatabaseResource}
    (h : w.Holds space name r) (hears : w.HearsRequests) {s : DatabaseStatus} {p : Phase}
    {t : Instant} (hphase : s.phase = some p) (htime : s.phaseUpdated = some t)
    (hdates : Instant.hasDates t.year = true) :
    ∃ u, kubeClient.ask toDatabase (statusRequest space name s) w =
        .ok { r with status := some s } u ∧
      u.Holds space name { r with status := some s } ∧
      u.events = w.events ++ [.kube (statusRequest space name s) 200] := by
  obtain ⟨ms, hms, hr⟩ := h.stored
  obtain ⟨ns, hns, hdecode⟩ := toDatabase_merge hr hphase htime hdates
  let objects := w.kube.objects.insert (KubeKind.database.path space name) (.object ns)
  have hanswer : w.kube.answer (statusRequest space name s) =
      (KubeStore.ok (.object ns), { w.kube with objects }) := by
    simp only [KubeStore.answer, statusRequest, KubeStore.update, hms, hns, objects]
  have hread : (KubeStore.ok (.object ns)).read toDatabase = .ok { r with status := some s } := by
    simp [KubeStore.ok, KubeResponse.read, KubeBody.value?, hdecode]
  have hsend := hears.send (statusRequest space name s)
  rw [hanswer] at hsend
  have hask : kubeClient.ask toDatabase (statusRequest space name s) w =
      .ok { r with status := some s }
        { w with
          kube := { w.kube with objects }
          events := w.events ++ [.kube (statusRequest space name s) 200] } := by
    rw [KubeClient.ask, Program.bind_of_ok hsend, hread]
    rfl
  exact ⟨_, hask, ⟨h.key, ns, Std.ExtTreeMap.getElem?_insert_self, hdecode⟩, rfl⟩

end World

/-! ## Looks -/

/-- A look at a database: when it happens, and what the attempt to make the database comes to. -/
structure DatabaseLook where
  now : Instant
  outcome : Except Error Provided

namespace DatabaseLook

variable (look : DatabaseLook)

/-- The phase after a look. -/
def phase : Phase :=
  match look.outcome with
  | .ok _ => .running
  | .error e => if e.kind = .invalid then .invalid else .failed

/-- The text of the error after a look. -/
def error : String :=
  match look.outcome with
  | .ok _ => ""
  | .error e => e.message

/-- What a look provides, if it succeeds. -/
def provided? : Option Provided := look.outcome.toOption

/-- The status that a look writes, if it writes one. -/
def written? (previous : Option DatabaseStatus) : Option DatabaseStatus :=
  let next := DatabaseStatus.after look.outcome previous
  if next.differs previous then some { next with phaseUpdated := some look.now } else none

/-- The status that a look leaves. -/
def statusAfter (previous : Option DatabaseStatus) : Option DatabaseStatus :=
  (look.written? previous).or previous

/-- What the last success of some looks provides, or else what a status says. -/
def lastProvided (looks : List DatabaseLook) (status : Option DatabaseStatus) : Provided :=
  (looks.filterMap provided?).getLast?.getD (DatabaseStatus.provided status)

theorem content_after (previous : Option DatabaseStatus) :
    (DatabaseStatus.after look.outcome previous).content =
      { phase := some look.phase
        host := (look.provided?.getD (DatabaseStatus.provided previous)).host
        user := (look.provided?.getD (DatabaseStatus.provided previous)).user
        error := look.error } := by
  obtain ⟨now, outcome⟩ := look
  cases outcome <;> rfl

/-- A look writes a status with its time, or it leaves what it finds. -/
theorem written?_cases (previous : Option DatabaseStatus) :
    (∃ status, look.written? previous = some status ∧ look.statusAfter previous = some status ∧
        previous.map DatabaseStatus.content ≠ some status.content ∧
        status.content = (DatabaseStatus.after look.outcome previous).content ∧
        status.phaseUpdated = some look.now) ∨
      ∃ status, look.written? previous = none ∧ look.statusAfter previous = some status ∧
        previous = some status ∧
        status.content = (DatabaseStatus.after look.outcome previous).content := by
  unfold statusAfter written?
  by_cases hdiffers : (DatabaseStatus.after look.outcome previous).differs previous = true
  · rw [if_pos hdiffers]
    exact .inl ⟨_, rfl, rfl, (DatabaseStatus.differs_iff _ _).mp hdiffers, rfl, rfl⟩
  · rw [if_neg hdiffers]
    rw [DatabaseStatus.differs_iff, not_not] at hdiffers
    obtain ⟨status, rfl, hcontent⟩ := Option.map_eq_some_iff.mp hdiffers
    exact .inr ⟨status, rfl, rfl, rfl, hcontent⟩

/-- What the status says that a look leaves. -/
theorem content_statusAfter (previous : Option DatabaseStatus) :
    (look.statusAfter previous).map DatabaseStatus.content =
      some (DatabaseStatus.after look.outcome previous).content := by
  obtain ⟨status, -, hafter, -, hcontent, -⟩ | ⟨status, -, hafter, -, hcontent⟩ :=
    look.written?_cases previous <;>
  rw [hafter, Option.map_some, hcontent]

theorem provided_statusAfter (previous : Option DatabaseStatus) :
    DatabaseStatus.provided (look.statusAfter previous) =
      look.provided?.getD (DatabaseStatus.provided previous) := by
  obtain ⟨status, hafter, hcontent⟩ :=
    Option.map_eq_some_iff.mp (look.content_statusAfter previous)
  rw [content_after, DatabaseStatus.content, DatabaseStatus.Content.mk.injEq] at hcontent
  obtain ⟨-, hhost, huser, -⟩ := hcontent
  rw [hafter, DatabaseStatus.provided, Option.getD_some, hhost, huser]

/-- Host and owning role come from the last success. -/
theorem provided_foldl (looks : List DatabaseLook) (status : Option DatabaseStatus) :
    DatabaseStatus.provided (looks.foldl (fun status look => look.statusAfter status) status) =
      lastProvided looks status := by
  induction looks generalizing status with
  | nil => rfl
  | cons look rest ih =>
      rw [List.foldl_cons, ih, lastProvided, lastProvided, provided_statusAfter,
        List.filterMap_cons]
      cases look.provided? with
      | none => rfl
      | some p => rw [List.getLast?_cons, Option.getD_some, Option.getD_some]

/-- A look of the same outcome as the one before writes nothing. -/
theorem written?_of_same_outcome {look previous : DatabaseLook}
    (h : previous.outcome = look.outcome) (status : Option DatabaseStatus) :
    look.written? (previous.statusAfter status) = none := by
  have hsame : (DatabaseStatus.after look.outcome (previous.statusAfter status)).content =
      (DatabaseStatus.after previous.outcome status).content := by
    obtain ⟨now, outcome⟩ := look
    subst h
    rw [content_after, content_after ⟨now, _⟩, provided_statusAfter]
    cases houtcome : previous.outcome <;> simp [phase, error, provided?, houtcome, Except.toOption]
  obtain ⟨_, -, -, hdiffers, hcontent, -⟩ | ⟨_, hnone, -⟩ :=
    look.written?_cases (previous.statusAfter status)
  · rw [content_statusAfter, hcontent, hsame] at hdiffers
    exact absurd rfl hdiffers
  · exact hnone

end DatabaseLook

namespace Services

/-- Whether a look of services at a database, which the Kubernetes API holds, is an attempt of a
given outcome that leaves the resource as it is. -/
structure Attempts (s : Services World) (space name : String) (look : DatabaseLook)
    (r : DatabaseResource) (w u : World) : Prop where
  kube : s.kube = World.kubeClient
  now : s.now = look.now
  dates : Instant.hasDates look.now.year = true
  attempt : (Program.attempt (s.provideDatabase space r.spec) : Program World Error _) w =
    .ok look.outcome u
  before : w.Holds space name r
  after : u.Holds space name r
  hears : u.HearsRequests

variable {s : Services World} {space name : String} {look : DatabaseLook} {r : DatabaseResource}
  {w u : World}

/-- The status after a look is written if it differs from the one before. -/
theorem writeStatus_of_attempts (h : s.Attempts space name look r w u) :
    ∃ t, s.writeStatus space name r.status (DatabaseStatus.after look.outcome r.status) u =
        .ok () t ∧
      t.Holds space name { r with status := look.statusAfter r.status } ∧
      t.events = u.events ++ (look.written? r.status).toList.map fun status =>
        .kube (World.statusRequest space name status) 200 := by
  rw [writeStatus, h.kube, h.now, DatabaseLook.statusAfter, DatabaseLook.written?]
  by_cases hdiffers : (DatabaseStatus.after look.outcome r.status).differs r.status = true
  · obtain ⟨p, hphase⟩ : ∃ p, (DatabaseStatus.after look.outcome r.status).phase = some p := by
      unfold DatabaseStatus.after
      split <;> exact ⟨_, rfl⟩
    let status : DatabaseStatus :=
      { DatabaseStatus.after look.outcome r.status with phaseUpdated := some look.now }
    have hstatus : status.phase = some p := hphase
    obtain ⟨t, hask, hholds, hevents⟩ := h.after.merge h.hears hstatus rfl h.dates
    rw [if_pos hdiffers, if_pos hdiffers]
    exact ⟨t, Program.bind_of_ok (Program.mapError_eq_ok_iff.mpr hask), hholds, hevents⟩
  · rw [if_neg hdiffers, if_neg hdiffers]
    exact ⟨u, rfl, h.after, (List.append_nil _).symm⟩

/-- A look succeeds and leaves the status that it should. -/
theorem reconcileDatabase_of_attempts (h : s.Attempts space name look r w u) :
    ∃ t, s.reconcileDatabase r w = .ok (s.databaseAction look.outcome) t ∧
      t.Holds space name { r with status := look.statusAfter r.status } ∧
      t.events = u.events ++ (look.written? r.status).toList.map fun status =>
        .kube (World.statusRequest space name status) 200 := by
  obtain ⟨t, hwrite, hholds⟩ := writeStatus_of_attempts h
  have hkey : (Program.ofExcept r.metadata.key : Program World Error _) w =
      .ok (space, name) w := by
    rw [h.before.key]
    rfl
  refine ⟨t, ?_, hholds⟩
  rw [reconcileDatabase, Program.bind_of_ok hkey]
  exact (Program.bind_of_ok h.attempt).trans (Program.bind_of_ok hwrite)

end Services

/-- The look of the services of some settings at a database of a specification, in a rehearsal. -/
def DatabaseLook.rehearsed (settings : Settings) (now : Instant) (space : String)
    (spec : DatabaseSpec) (w : World) : DatabaseLook where
  now := now
  outcome := (((settings.services (World.surroundings .memory .memory) now).provideDatabase space
    spec).outcome w).1

/-- In a rehearsal every look at a database that the Kubernetes API holds is an attempt, as long as
the API hears requests. -/
theorem Services.attempts_rehearsed (settings : Settings) (now : Instant) {space name : String}
    {r : DatabaseResource} {w : World} (hdates : Instant.hasDates now.year = true)
    (hholds : w.Holds space name r) (hhears : w.HearsRequests) :
    ∃ u, (settings.services (World.surroundings .memory .memory) now).Attempts space name
      (.rehearsed settings now space r.spec w) r w u := by
  let s := settings.services (World.surroundings .memory .memory) now
  have hapi : ((s.provideDatabase space r.spec).outcome w).2.api = w.api :=
    World.keeps_api_provideDatabase settings .memory now space r.spec w
  refine ⟨((s.provideDatabase space r.spec).outcome w).2, ?_⟩
  exact
    { kube := rfl
      now := rfl
      dates := hdates
      attempt := Program.attempt_eq_outcome ..
      before := hholds
      after := hholds.of_api hapi
      hears := World.hearsRequests_iff.mpr (hapi ▸ World.hearsRequests_iff.mp hhears) }

/-! ## Courses -/

/-- What happens to a database that is looked at time and again, from a world to another.  Between
two looks anything may happen that leaves its status as it is. -/
inductive DatabaseCourse (space name : String) (start : World) : List DatabaseLook → World → Prop
  | start : DatabaseCourse space name start [] start
  | between {looks : List DatabaseLook} {w u : World} {r r' : DatabaseResource}
      (course : DatabaseCourse space name start looks w) (before : w.Holds space name r)
      (after : u.Holds space name r') (same : r'.status = r.status) :
      DatabaseCourse space name start looks u
  | look {looks : List DatabaseLook} {w u t : World} {s : Services World} {look : DatabaseLook}
      {r : DatabaseResource} {action : Action} (course : DatabaseCourse space name start looks w)
      (attempts : s.Attempts space name look r w u) (run : s.reconcileDatabase r w = .ok action t) :
      DatabaseCourse space name start (looks ++ [look]) t

namespace DatabaseCourse

variable {space name : String} {start w : World} {looks : List DatabaseLook}
  {r₀ : DatabaseResource}

/-- The status at the end of a course is what the looks make of the status at its start. -/
theorem status_eq_foldl (hcourse : DatabaseCourse space name start looks w)
    (hstart : start.Holds space name r₀) :
    ∃ r, w.Holds space name r ∧
      r.status = looks.foldl (fun status look => look.statusAfter status) r₀.status := by
  induction hcourse with
  | start => exact ⟨r₀, hstart, rfl⟩
  | between _ before after same ih =>
      obtain ⟨r, hr, hstatus⟩ := ih
      cases hr.unique before
      exact ⟨_, after, same.trans hstatus⟩
  | look _ attempts run ih =>
      obtain ⟨r, hr, hstatus⟩ := ih
      cases hr.unique attempts.before
      obtain ⟨t, hrun, hholds, -⟩ := Services.reconcileDatabase_of_attempts attempts
      rw [run] at hrun
      cases hrun
      refine ⟨_, hholds, ?_⟩
      rw [List.foldl_append, ← hstatus]
      rfl

/-- The stored status of a database follows the attempts to make it.  After a course and one more
look, which succeeds, the phase and the error are those of the last attempt, and host and owning
role those of the last success or of the first status.  A status is written exactly if something in
it besides its time changes.  Then its time is that of the look, and else it stays as it was.  The
outcome of the look before is not written again. -/
theorem status_follows_attempts {earlier : List DatabaseLook} {u : World} {s : Services World}
    {look : DatabaseLook} {r : DatabaseResource} (hstart : start.Holds space name r₀)
    (hcourse : DatabaseCourse space name start earlier w)
    (h : s.Attempts space name look r w u) :
    ∃ t status, s.reconcileDatabase r w = .ok (s.databaseAction look.outcome) t ∧
      t.Holds space name { r with status := some status } ∧
      status.phase = some look.phase ∧ status.error = look.error ∧
      DatabaseStatus.provided (some status) =
        DatabaseLook.lastProvided (earlier ++ [look]) r₀.status ∧
      (r.status.map DatabaseStatus.content ≠ some status.content →
        t.events = u.events ++ [.kube (World.statusRequest space name status) 200] ∧
          status.phaseUpdated = some look.now) ∧
      (r.status.map DatabaseStatus.content = some status.content →
        t.events = u.events ∧ r.status = some status) ∧
      ∀ previous ∈ earlier.getLast?, previous.outcome = look.outcome → t.events = u.events := by
  obtain ⟨r', hr', hfold⟩ := hcourse.status_eq_foldl hstart
  cases hr'.unique h.before
  obtain ⟨t, hrun, hholds, hevents⟩ := Services.reconcileDatabase_of_attempts h
  obtain ⟨status, hafter, hcontent⟩ :=
    Option.map_eq_some_iff.mp (look.content_statusAfter r.status)
  rw [hafter] at hholds
  have hsays := hcontent
  rw [DatabaseLook.content_after, DatabaseStatus.content,
    DatabaseStatus.Content.mk.injEq] at hsays
  obtain ⟨hphase, -, -, herror⟩ := hsays
  have hprovided : DatabaseStatus.provided (some status) =
      DatabaseLook.lastProvided (earlier ++ [look]) r₀.status := by
    rw [← DatabaseLook.provided_foldl, List.foldl_append, ← hfold, ← hafter]
    rfl
  have hrepeated : ∀ previous ∈ earlier.getLast?, previous.outcome = look.outcome →
      t.events = u.events := by
    intro previous hprevious hsame
    obtain ⟨before, rfl⟩ := List.getLast?_eq_some_iff.mp hprevious
    rw [List.foldl_append] at hfold
    rw [hevents, hfold, List.foldl_cons, List.foldl_nil,
      DatabaseLook.written?_of_same_outcome hsame]
    exact List.append_nil _
  refine ⟨t, status, hrun, hholds, hphase, herror, hprovided, ?_, ?_, hrepeated⟩
  · intro hchanges
    obtain ⟨status', hwritten, hafter', -, -, htime⟩ | ⟨status', -, hafter', hprevious, -⟩ :=
      look.written?_cases r.status <;>
    cases hafter.symm.trans hafter'
    · exact ⟨by rw [hevents, hwritten]; rfl, htime⟩
    · exact absurd (congrArg _ hprevious) hchanges
  · intro hsame
    obtain ⟨status', -, hafter', hchanges, -⟩ | ⟨status', hwritten, hafter', hprevious, -⟩ :=
      look.written?_cases r.status <;>
    cases hafter.symm.trans hafter'
    · exact absurd hsame hchanges
    · exact ⟨by rw [hevents, hwritten]; exact List.append_nil _, hprevious⟩

/-- A course goes on with a look in a rehearsal, whatever has happened since that has left the
status alone. -/
theorem exists_rehearsed {r r' : DatabaseResource} {u : World} (settings : Settings)
    (now : Instant) (hcourse : DatabaseCourse space name start looks w)
    (before : w.Holds space name r) (after : u.Holds space name r') (same : r'.status = r.status)
    (hhears : u.HearsRequests) (hdates : Instant.hasDates now.year = true) :
    let look := DatabaseLook.rehearsed settings now space r'.spec u
    ∃ t, DatabaseCourse space name start (looks ++ [look]) t ∧
      t.Holds space name { r' with status := look.statusAfter r'.status } := by
  obtain ⟨v, hattempts⟩ := Services.attempts_rehearsed settings now hdates after hhears
  obtain ⟨t, hrun, hholds, -⟩ := Services.reconcileDatabase_of_attempts hattempts
  exact ⟨t, .look (.between hcourse before after same) hattempts hrun, hholds⟩

/-! ## The morning of a database -/

/-- An hour of a spring day. -/
def springHour (hour : Fin 24) : Instant where
  year := 2024
  month := 5
  day := 3
  hour := hour
  minute := 0
  second := 0
  nano := 0
  isDate := by decide
  isTime := ⟨hour.isLt, by decide, by decide, by decide⟩

/-- The settings of an operator for one host. -/
def ordersSettings : Settings where
  logins := NameMap.ofPairs [("pg:5432", { user := "admin" })]

/-- A database on this host. -/
def ordersSpec : DatabaseSpec where
  name := "orders"
  password := some { value := "s3cret" }
  host := some { value := "pg:5432" }

/-- The same database without a host. -/
def hostlessSpec : DatabaseSpec := { ordersSpec with host := none }

/-- A status of this database, written at an hour. -/
def ordersStatus (phase : Phase) (hour : Fin 24) (error : String) : DatabaseStatus :=
  { phase, phaseUpdated := some (springHour hour), host := "pg:5432", user := "orders", error }

/-- The database runs. -/
def provided8 : DatabaseStatus := ordersStatus .running 8 ""

/-- Its server cannot be reached. -/
def refused9 : DatabaseStatus := ordersStatus .failed 9 "connection refused (SQLSTATE 08006)"

/-- Its server does not run a statement. -/
def denied10 : DatabaseStatus := ordersStatus .failed 10 "permission denied (SQLSTATE 42501)"

/-- The resource of a database. -/
def ordersResource (spec : DatabaseSpec) (status : Option DatabaseStatus) : DatabaseResource where
  metadata := { name := some "orders", space := some "shop" }
  spec := spec
  status := status

/-- The object of this resource. -/
def ordersMembers (spec : DatabaseSpec) (status : Option DatabaseStatus) : JsonMembers :=
  [("metadata", .object [("name", .text "orders"), ("namespace", .text "shop")]),
    ("spec", spec.encode), ("status", (status.map DatabaseStatus.encode).getD .null)]

/-- A world with this object, where some calls fail. -/
def ordersWorld (spec : DatabaseSpec) (status : Option DatabaseStatus) (faults : List Fault) :
    World where
  kube := ⟨(∅ : NameMap Json).insert (KubeKind.database.path "shop" "orders")
    (.object (ordersMembers spec status))⟩
  faults := faults

theorem ordersWorld_holds {spec : DatabaseSpec} {status : Option DatabaseStatus}
    {faults : List Fault}
    (h : toDatabase (.object (ordersMembers spec status)) = .ok (ordersResource spec status)) :
    (ordersWorld spec status faults).Holds "shop" "orders" (ordersResource spec status) :=
  ⟨rfl, _, Std.ExtTreeMap.getElem?_insert_self, h⟩

/-- A fault of a database server. -/
def ordersFault (point : FaultPoint) (code message : String) : Fault where
  point := point
  start := ""
  code := some code
  message := message
  response := ⟨500, .text ""⟩
  times := 1

/-- A server that cannot be reached. -/
def refusal : Fault := ordersFault .connect "08006" "connection refused"

/-- A server that does not run a statement. -/
def denial : Fault := ordersFault .statement "42501" "permission denied"

/-- A look at the database at an hour. -/
def ordersLook (hour : Fin 24) (spec : DatabaseSpec) (status : Option DatabaseStatus)
    (faults : List Fault) : DatabaseLook :=
  .rehearsed ordersSettings (springHour hour) "shop" spec (ordersWorld spec status faults)

/-- Any course goes on with such a look. -/
theorem exists_ordersLook {spec : DatabaseSpec} {status next : Option DatabaseStatus}
    (hour : Fin 24) (spec' : DatabaseSpec) (faults : List Fault)
    (hcourse : DatabaseCourse "shop" "orders" start looks w)
    (hholds : w.Holds "shop" "orders" (ordersResource spec status))
    (hdecode : toDatabase (.object (ordersMembers spec' status)) =
      .ok (ordersResource spec' status))
    (hfaults : ∀ f ∈ faults, f.point ≠ .kube)
    (hnext : (ordersLook hour spec' status faults).statusAfter status = next) :
    ∃ t, DatabaseCourse "shop" "orders" start (looks ++ [ordersLook hour spec' status faults]) t ∧
      t.Holds "shop" "orders" (ordersResource spec' next) := by
  obtain ⟨t, hnew, hafter⟩ := hcourse.exists_rehearsed ordersSettings (springHour hour) hholds
    (ordersWorld_holds hdecode) rfl hfaults rfl
  exact ⟨t, hnew, hnext ▸ hafter⟩

/-- The first looks at the database: a success and two failures. -/
def ordersLooks : List DatabaseLook :=
  [ordersLook 8 ordersSpec none [], ordersLook 9 ordersSpec (some provided8) [refusal],
    ordersLook 10 ordersSpec (some refused9) [denial]]

/-- These looks leave the status of the last failure. -/
theorem exists_denied : ∃ w, DatabaseCourse "shop" "orders" (ordersWorld ordersSpec none [])
    ordersLooks w ∧ w.Holds "shop" "orders" (ordersResource ordersSpec (some denied10)) := by
  have hstart : (ordersWorld ordersSpec none []).Holds "shop" "orders"
      (ordersResource ordersSpec none) := ordersWorld_holds rfl
  obtain ⟨w, hcourse, hholds⟩ := exists_ordersLook 8 ordersSpec [] .start hstart rfl (by decide)
    (show _ = some provided8 by decide +kernel)
  obtain ⟨w, hcourse, hholds⟩ := exists_ordersLook 9 ordersSpec [refusal] hcourse hholds rfl
    (by decide) (show _ = some refused9 by decide +kernel)
  exact exists_ordersLook 10 ordersSpec [denial] hcourse hholds rfl (by decide)
    (show _ = some denied10 by decide +kernel)

/-- A look that fails like the one before it. -/
def repeatedLook : DatabaseLook := ordersLook 11 ordersSpec (some denied10) [denial]

/-- A look after the host has been taken away. -/
def hostlessLook : DatabaseLook := ordersLook 12 hostlessSpec (some denied10) []

/-- The services that look at the database at an hour. -/
def ordersServices (hour : Fin 24) : Services World :=
  ordersSettings.services (World.surroundings .memory .memory) (springHour hour)

/-- After a success and two failures, to fail again in the same way writes nothing.  Without a host
the database becomes invalid then, and its status still says where it was made. -/
theorem hostless_becomes_invalid :
    (ordersWorld ordersSpec none []).Holds "shop" "orders" (ordersResource ordersSpec none) ∧
      ordersLooks.map (fun look => (look.phase, look.error, look.provided?)) =
        [(.running, "", some ⟨"pg:5432", "orders"⟩), (.failed, refused9.error, none),
          (.failed, denied10.error, none)] ∧
      DatabaseCourse "shop" "orders" (ordersWorld ordersSpec none []) ordersLooks
        (ordersWorld ordersSpec (some denied10) [denial]) ∧
      (∃ u t, (ordersServices 11).Attempts "shop" "orders" repeatedLook
          (ordersResource ordersSpec (some denied10))
          (ordersWorld ordersSpec (some denied10) [denial]) u ∧
        (ordersServices 11).reconcileDatabase (ordersResource ordersSpec (some denied10))
          (ordersWorld ordersSpec (some denied10) [denial]) = .ok (.requeue retryDelay) t ∧
        t.events = u.events) ∧
      DatabaseCourse "shop" "orders" (ordersWorld ordersSpec none [])
        (ordersLooks ++ [repeatedLook]) (ordersWorld hostlessSpec (some denied10) []) ∧
      ∃ u t status, (ordersServices 12).Attempts "shop" "orders" hostlessLook
          (ordersResource hostlessSpec (some denied10))
          (ordersWorld hostlessSpec (some denied10) []) u ∧
        (ordersServices 12).reconcileDatabase (ordersResource hostlessSpec (some denied10))
          (ordersWorld hostlessSpec (some denied10) []) = .ok .awaitChange t ∧
        t.Holds "shop" "orders" (ordersResource hostlessSpec (some status)) ∧
        status.phase = some .invalid ∧
        status.error = "must specify exactly one of host and hostCredentials" ∧
        DatabaseStatus.provided (some status) = ⟨"pg:5432", "orders"⟩ ∧
        status.phaseUpdated = some (springHour 12) := by
  have hstart : (ordersWorld ordersSpec none []).Holds "shop" "orders"
      (ordersResource ordersSpec none) := ordersWorld_holds rfl
  have hdenied : (ordersWorld ordersSpec (some denied10) [denial]).Holds "shop" "orders"
      (ordersResource ordersSpec (some denied10)) := ordersWorld_holds rfl
  have hhostless : (ordersWorld hostlessSpec (some denied10) []).Holds "shop" "orders"
      (ordersResource hostlessSpec (some denied10)) := ordersWorld_holds rfl
  have hfaults : ∀ f ∈ [denial], f.point ≠ .kube := by decide
  obtain ⟨w, hcourse, hholds⟩ := exists_denied
  have hearlier := hcourse.between hholds hdenied rfl
  obtain ⟨w, hcourse, hholds⟩ := exists_ordersLook 11 ordersSpec [denial] hcourse hholds rfl
    hfaults (show _ = some denied10 by decide +kernel)
  have hlater := hcourse.between hholds hhostless rfl
  obtain ⟨u, hagain⟩ :=
    Services.attempts_rehearsed ordersSettings (springHour 11) rfl hdenied hfaults
  obtain ⟨v, hlast⟩ :=
    Services.attempts_rehearsed ordersSettings (springHour 12) rfl hhostless nofun
  refine ⟨hstart, by decide +kernel, hearlier, ?_, hlater, ?_⟩
  · obtain ⟨t, _, hrun, -, -, -, -, -, -, hrepeated⟩ :=
      status_follows_attempts hstart hearlier hagain
    have hfails : (ordersLook 10 ordersSpec (some refused9) [denial]).outcome =
        .error (.sql (.database "42501" "permission denied")) := rfl
    have hfails' : repeatedLook.outcome = .error (.sql (.database "42501" "permission denied")) :=
      rfl
    exact ⟨u, t, hagain, hrun, hrepeated _ rfl (hfails.trans hfails'.symm)⟩
  · obtain ⟨t, status, hrun, hholds, hphase, herror, hprovided, hwrites, -⟩ :=
      status_follows_attempts hstart hlater hlast
    have hphase : status.phase = some .invalid :=
      hphase.trans (show some hostlessLook.phase = some .invalid by decide +kernel)
    have hchanges : (some denied10).map DatabaseStatus.content ≠ some status.content := by
      intro hsame
      have hsame : denied10.phase = status.phase := congrArg (·.phase) (Option.some.inj hsame)
      rw [hphase] at hsame
      cases hsame
    exact ⟨v, t, status, hlast, hrun, hholds, hphase, herror.trans (by decide +kernel),
      hprovided.trans (by decide +kernel), (hwrites hchanges).2⟩

end DatabaseCourse

end PgSteward
