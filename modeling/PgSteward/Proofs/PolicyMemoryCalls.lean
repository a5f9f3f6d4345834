import PgSteward.Proofs.NameMaps
import PgSteward.Proofs.ProgramRuns
import PgSteward.Proofs.StoredPolicies

/-!
# Calls to the policy store in memory

What each call does to a store in which its policy exists.  `contents` shows the policies without
their attachments; attaching and detaching keeps it, whether the call fails or not.

A store is `WellFormed` when all its policies are.
-/

namespace PgSteward

namespace PolicyMemory

/-- A store whose policies are well formed, each under the resource name of its name. -/
structure WellFormed (m : PolicyMemory) : Prop where
  /-- Each policy is kept under the resource name of its name. -/
  keyed : ∀ (arn : String) (p : StoredPolicy), m.policies[arn]? = some p → arn = arnOf p.name
  /-- Each policy is well formed. -/
  policies : ∀ (arn : String) (p : StoredPolicy), m.policies[arn]? = some p → p.WellFormed

theorem wellFormed_iff {m : PolicyMemory} : m.WellFormed ↔
    ∀ e ∈ m.policies.toList, e.1 = arnOf e.2.name ∧ e.2.WellFormed := by
  constructor
  · rintro h ⟨arn, p⟩ he
    have hp := Std.ExtTreeMap.mem_toList_iff_getElem?_eq_some.mp he
    exact ⟨h.keyed arn p hp, h.policies arn p hp⟩
  · intro h
    constructor
    · intro arn p hp
      exact (h (arn, p) (Std.ExtTreeMap.mem_toList_iff_getElem?_eq_some.mpr hp)).1
    · intro arn p hp
      exact (h (arn, p) (Std.ExtTreeMap.mem_toList_iff_getElem?_eq_some.mpr hp)).2

instance (m : PolicyMemory) : Decidable m.WellFormed := decidable_of_iff _ wellFormed_iff.symm

/-- The policies without their attachments. -/
def contents (m : PolicyMemory) : NameMap StoredPolicy := m.policies.map fun _ p => p.detached

theorem getElem?_contents (m : PolicyMemory) (arn : String) :
    m.contents[arn]? = m.policies[arn]?.map StoredPolicy.detached :=
  Std.ExtTreeMap.getElem?_map

/-- Stores of the same contents hold the same policies, up to their attachments. -/
theorem exists_of_contents {m n : PolicyMemory} (h : n.contents = m.contents) {arn : String}
    {q : StoredPolicy} (hq : n.policies[arn]? = some q) :
    ∃ p, m.policies[arn]? = some p ∧ p.detached = q.detached := by
  have hn : n.contents[arn]? = some q.detached := by rw [getElem?_contents, hq]; rfl
  rw [h, getElem?_contents, Option.map_eq_some_iff] at hn
  exact hn

/-- A policy that differs in its attachments only makes no difference to the contents. -/
theorem contents_attached {m n : PolicyMemory} {arn : String} {p : StoredPolicy} {roles : NameSet}
    (h : m.policies[arn]? = some p)
    (hn : n.policies = m.policies.insert arn { p with attached := roles }) :
    n.contents = m.contents := by
  apply Std.ExtTreeMap.ext_getElem?
  intro a
  rw [getElem?_contents, getElem?_contents, hn, Std.ExtTreeMap.getElem?_insert]
  by_cases ha : arn = a
  · subst ha
    simp [h, StoredPolicy.detached]
  · simp [ha]

/-- A store with a policy more, or with another one in its place. -/
theorem contents_insert {m n : PolicyMemory} {arn : String} {p : StoredPolicy}
    (h : n.policies = m.policies.insert arn p) :
    n.contents = m.contents.insert arn p.detached := by
  apply Std.ExtTreeMap.ext_getElem?
  intro other
  by_cases hother : other = arn
  · rw [hother, getElem?_contents, h, Std.ExtTreeMap.getElem?_insert_self,
      Std.ExtTreeMap.getElem?_insert_self]
    rfl
  · rw [getElem?_contents, h, NameMap.getElem?_insert_of_ne _ hother,
      NameMap.getElem?_insert_of_ne _ hother, getElem?_contents]

theorem contents_erase {m n : PolicyMemory} {arn : String}
    (h : n.policies = m.policies.erase arn) :
    n.contents = m.contents.erase arn := by
  apply Std.ExtTreeMap.ext_getElem?
  intro other
  rw [getElem?_contents, h, Std.ExtTreeMap.getElem?_erase, Std.ExtTreeMap.getElem?_erase,
    getElem?_contents]
  split <;> rfl

/-- The store after a call more that changes something. -/
def counted (m : PolicyMemory) : PolicyMemory := { m with mutations := m.mutations + 1 }

/-- The store with a policy under a resource name. -/
def withPolicy (m : PolicyMemory) (arn : String) (p : StoredPolicy) : PolicyMemory :=
  { m with policies := m.policies.insert arn p }

@[simp] theorem counted_policies (m : PolicyMemory) : m.counted.policies = m.policies := rfl

@[simp] theorem withPolicy_policies (m : PolicyMemory) (arn : String) (p : StoredPolicy) :
    (m.withPolicy arn p).policies = m.policies.insert arn p := rfl

/-- Of two policies kept under one resource name the later stays. -/
theorem withPolicy_withPolicy (m : PolicyMemory) (arn : String) (p q : StoredPolicy) :
    (m.withPolicy arn p).withPolicy arn q = m.withPolicy arn q := by
  simp only [withPolicy, NameMap.insert_insert]

/-! ## Steps of calls -/

variable {m : PolicyMemory} {arn : String} {p : StoredPolicy}

theorem find_of_some (h : m.policies[arn]? = some p) : find arn m = .ok p m := by
  simp only [find, Program.bind_of_ok (Program.run_get m), h]
  rfl

theorem find_of_none (h : m.policies[arn]? = none) :
    find arn m = .error (.misuse .noPolicy) m := by
  simp only [find, Program.bind_of_ok (Program.run_get m), h]
  rfl

theorem count_run (m : PolicyMemory) : count m = .ok () m.counted := rfl

theorem keep_run (m : PolicyMemory) (arn : String) (p : StoredPolicy) :
    keep arn p m = .ok () (m.withPolicy arn p) := rfl

theorem list_run (m : PolicyMemory) :
    list m = .ok (m.policies.toList.map fun e => e.2.managed e.1) m := rfl

/-! ## Calls about versions -/

/-- A policy of a free name is created. -/
theorem create_of_none {name : String} (document : PolicyDocument)
    (h : m.policies[arnOf name]? = none) :
    create name document m = .ok ((StoredPolicy.fresh name document).managed (arnOf name))
      (m.counted.withPolicy (arnOf name) (.fresh name document)) := by
  have hfree : m.policies.contains (arnOf name) = false := by
    simp [Std.ExtTreeMap.contains_eq_isSome_getElem?, h]
  rw [create, Program.bind_of_ok (count_run m)]
  simp only [Program.bind_of_ok (Program.run_get m.counted), counted_policies, hfree]
  rfl

/-- A policy of a name that is taken is not created. -/
theorem create_of_some {name : String} (document : PolicyDocument)
    (h : m.policies[arnOf name]? = some p) :
    create name document m = .error (.misuse .policyExists) m.counted := by
  have htaken : m.policies.contains (arnOf name) = true := by
    simp [Std.ExtTreeMap.contains_eq_isSome_getElem?, h]
  rw [create, Program.bind_of_ok (count_run m)]
  simp only [Program.bind_of_ok (Program.run_get m.counted), counted_policies, htaken]
  rfl

/-- A policy with room for a version gets one. -/
theorem createVersion_of_some (document : PolicyDocument) (h : m.policies[arn]? = some p)
    (hroom : p.versions.length < versionLimit) :
    createVersion arn document m = .ok (p.addVersion document).defaultVersion
      (m.counted.withPolicy arn (p.addVersion document)) := by
  have hfound : find arn m.counted = .ok p m.counted := find_of_some h
  have hfull : ¬p.versions.length ≥ versionLimit := by omega
  rw [createVersion, Program.bind_of_ok (count_run m), Program.bind_of_ok hfound, if_neg hfull]
  rfl

/-- A version that is not the default is deleted. -/
theorem deleteVersion_of_some {versionId : String} (h : m.policies[arn]? = some p)
    (hother : p.defaultVersion ≠ versionId) :
    deleteVersion arn versionId m =
      .ok () (m.counted.withPolicy arn (p.dropVersion versionId)) := by
  have hfound : find arn m.counted = .ok p m.counted := find_of_some h
  rw [deleteVersion, Program.bind_of_ok (count_run m), Program.bind_of_ok hfound, if_neg hother]
  rfl

/-- A policy without attachments is deleted. -/
theorem delete_of_some (h : m.policies[arn]? = some p) (hfree : p.attached = ∅) :
    delete arn m = .ok () { m.counted with policies := m.policies.erase arn } := by
  have hfound : find arn m.counted = .ok p m.counted := find_of_some h
  rw [delete, Program.bind_of_ok (count_run m), Program.bind_of_ok hfound]
  simp [hfree]
  rfl

/-! ## Calls about attachments -/

theorem attachedRoles_of_some (h : m.policies[arn]? = some p) :
    attachedRoles arn m = .ok p.attached.toList m := by
  simp only [attachedRoles, Program.bind_of_ok (Program.run_get m), h]
  rfl

theorem attachedRoles_run (m : PolicyMemory) (arn : String) :
    ∃ roles, attachedRoles arn m = .ok roles m := by
  cases h : m.policies[arn]? with
  | some p => exact ⟨_, attachedRoles_of_some h⟩
  | none =>
      refine ⟨[], ?_⟩
      simp only [attachedRoles, Program.bind_of_ok (Program.run_get m), h]
      rfl

/-- The failure of a call that has been told to fail. -/
def injected (call : FailingCall) : IamError :=
  .service (.exception "ServiceFailureException" (some s!"{call.word} failed"))

/-- A call that has been told to fail does so once. -/
theorem failNext_of_mem {call : FailingCall} (h : call ∈ m.failures) :
    failNext call m = .error (injected call) { m with failures := m.failures.erase call } := by
  simp only [failNext, Program.bind_of_ok (Program.run_get m), List.contains_eq_mem, h, decide_true,
    if_true]
  rfl

theorem failNext_of_not_mem {call : FailingCall} (h : call ∉ m.failures) :
    failNext call m = .ok () m := by
  simp only [failNext, Program.bind_of_ok (Program.run_get m), List.contains_eq_mem, h,
    decide_false]
  rfl

/-- A policy is attached to a role, unless the call has been told to fail. -/
theorem attach_of_some {role : String} (h : m.policies[arn]? = some p)
    (hfail : .attach ∉ m.failures) :
    attach role arn m = .ok ()
      (m.counted.withPolicy arn { p with attached := p.attached.insert role }) := by
  have hfound : find arn m.counted = .ok p m.counted := find_of_some h
  rw [attach, Program.bind_of_ok (failNext_of_not_mem hfail), Program.bind_of_ok (count_run m),
    Program.bind_of_ok hfound, keep_run]

/-- The store after a policy has been detached from a role. -/
def afterDetach (m : PolicyMemory) (arn role : String) (p : StoredPolicy) : PolicyMemory :=
  m.withPolicy arn { p with attached := p.attached.erase role }

/-- A detachment may find that someone else has made it. -/
theorem detach_of_raced {role : String} (h : m.policies[arn]? = some p)
    (hfail : .detach ∉ m.failures) (hraced : 0 < m.racedDetaches) :
    detach role arn m = .error (notAttached role)
      { m.afterDetach arn role p with racedDetaches := m.racedDetaches - 1 } := by
  rw [detach, Program.bind_of_ok (failNext_of_not_mem hfail), Program.bind_of_ok (find_of_some h),
    Program.bind_of_ok (keep_run ..), Program.bind_of_ok (Program.run_get _),
    if_pos (show 0 < (m.withPolicy arn { p with attached := p.attached.erase role }).racedDetaches
      from hraced), Program.bind_of_ok (Program.run_set ..)]
  rfl

/-- Otherwise it says whether the policy was attached to the role. -/
theorem detach_of_not_raced {role : String} (h : m.policies[arn]? = some p)
    (hfail : .detach ∉ m.failures) (hraced : ¬0 < m.racedDetaches) :
    detach role arn m =
      if p.attached.contains role then .ok () (m.afterDetach arn role p).counted
      else .error (notAttached role) (m.afterDetach arn role p).counted := by
  rw [detach, Program.bind_of_ok (failNext_of_not_mem hfail), Program.bind_of_ok (find_of_some h),
    Program.bind_of_ok (keep_run ..), Program.bind_of_ok (Program.run_get _),
    if_neg (show ¬0 < (m.withPolicy arn { p with attached := p.attached.erase role }).racedDetaches
      from hraced)]
  cases p.attached.contains role <;> rfl

/-- In either case the policy is detached from the role afterwards. -/
theorem detach_of_some (role : String) (h : m.policies[arn]? = some p)
    (hfail : .detach ∉ m.failures) :
    ∃ n : PolicyMemory, n.policies = (m.afterDetach arn role p).policies ∧
      n.failures = m.failures ∧
      (detach role arn m = .ok () n ∨ detach role arn m = .error (notAttached role) n) := by
  by_cases hraced : 0 < m.racedDetaches
  · rw [detach_of_raced h hfail hraced]
    exact ⟨{ m.afterDetach arn role p with racedDetaches := m.racedDetaches - 1 }, rfl, rfl,
      .inr rfl⟩
  · rw [detach_of_not_raced h hfail hraced]
    refine ⟨(m.afterDetach arn role p).counted, rfl, rfl, ?_⟩
    split
    · exact .inl rfl
    · exact .inr rfl

/-! ## What the calls come to -/

/-- A version is made of a policy with room for it. -/
theorem createVersion_meets (m : PolicyMemory) (arn : String) (document : PolicyDocument) :
    (createVersion arn document).Meets m
      (fun _ n => ∃ p, m.contents[arn]? = some p ∧
        n.contents = m.contents.insert arn (p.addVersion document))
      fun e n => n.contents = m.contents ∧ (e = .misuse .tooManyVersions →
        ∃ p, m.contents[arn]? = some p ∧ versionLimit ≤ p.versions.length) := by
  rw [getElem?_contents]
  cases h : m.policies[arn]? with
  | none =>
      have hfind : find arn m.counted = .error (.misuse .noPolicy) m.counted := find_of_none h
      refine Program.meets_of_error (t := m.counted) (e := .misuse .noPolicy) ?_ ⟨rfl, by simp⟩
      rw [createVersion, Program.bind_of_ok (count_run m), Program.bind_of_error hfind]
  | some p =>
      by_cases hroom : p.versions.length < versionLimit
      · exact Program.meets_of_ok (createVersion_of_some document h hroom)
          ⟨p.detached, rfl, contents_insert (p := p.addVersion document) rfl⟩
      · have hfind : find arn m.counted = .ok p m.counted := find_of_some h
        refine Program.meets_of_error (t := m.counted) (e := .misuse .tooManyVersions) ?_
          ⟨rfl, fun _ => ⟨p.detached, rfl, Nat.le_of_not_lt hroom⟩⟩
        rw [createVersion, Program.bind_of_ok (count_run m), Program.bind_of_ok hfind,
          if_pos (Nat.le_of_not_lt hroom)]
        rfl

/-- A version is deleted unless it is the default. -/
theorem deleteVersion_meets (m : PolicyMemory) (arn versionId : String) :
    (deleteVersion arn versionId).Meets m
      (fun _ n => ∃ p, m.contents[arn]? = some p ∧ p.defaultVersion ≠ versionId ∧
        n.contents = m.contents.insert arn (p.dropVersion versionId))
      fun e n => n.contents = m.contents ∧ e ≠ .misuse .tooManyVersions ∧
        ∀ p, m.contents[arn]? = some p → p.defaultVersion = versionId := by
  rw [getElem?_contents]
  cases h : m.policies[arn]? with
  | none =>
      have hfind : find arn m.counted = .error (.misuse .noPolicy) m.counted := find_of_none h
      refine Program.meets_of_error (t := m.counted) (e := .misuse .noPolicy) ?_
        ⟨rfl, by simp, by simp⟩
      rw [deleteVersion, Program.bind_of_ok (count_run m), Program.bind_of_error hfind]
  | some p =>
      by_cases hdefault : p.defaultVersion = versionId
      · have hfind : find arn m.counted = .ok p m.counted := find_of_some h
        refine Program.meets_of_error (t := m.counted) (e := .misuse .defaultVersion) ?_
          ⟨rfl, by simp, ?_⟩
        · rw [deleteVersion, Program.bind_of_ok (count_run m), Program.bind_of_ok hfind,
            if_pos hdefault]
          rfl
        · rintro q ⟨⟩
          exact hdefault
      · exact Program.meets_of_ok (deleteVersion_of_some h hdefault)
          ⟨p.detached, rfl, hdefault, contents_insert (p := p.dropVersion versionId) rfl⟩

/-- A policy is created unless its name is taken. -/
theorem create_meets (m : PolicyMemory) (name : String) (document : PolicyDocument) :
    (create name document).Meets m
      (fun _ n => m.contents[arnOf name]? = none ∧
        n.contents = m.contents.insert (arnOf name) (.fresh name document))
      fun e n => n.contents = m.contents ∧ e ≠ .misuse .tooManyVersions := by
  rw [getElem?_contents]
  cases h : m.policies[arnOf name]? with
  | none =>
      exact Program.meets_of_ok (create_of_none document h)
        ⟨rfl, contents_insert (p := .fresh name document) rfl⟩
  | some p => exact Program.meets_of_error (create_of_some document h) ⟨rfl, by simp⟩

/-- A call changes attachments only, and does not fail for too many versions. -/
def Minor {α : Type} (p : Program PolicyMemory IamError α) : Prop :=
  ∀ m, p.Meets m (fun _ n => n.contents = m.contents)
    fun e n => n.contents = m.contents ∧ e ≠ .misuse .tooManyVersions

theorem minor_list : Minor list := fun m => Program.meets_of_ok (list_run m) rfl

theorem minor_attachedRoles (arn : String) : Minor (attachedRoles arn) := by
  intro m
  obtain ⟨roles, h⟩ := attachedRoles_run m arn
  exact Program.meets_of_ok h rfl

theorem minor_attach (role arn : String) : Minor (attach role arn) := by
  intro m
  by_cases hfail : .attach ∈ m.failures
  · refine Program.meets_of_error (t := { m with failures := m.failures.erase .attach })
      (e := injected .attach) ?_ ⟨rfl, by simp [injected]⟩
    rw [attach, Program.bind_of_error (failNext_of_mem hfail)]
  · cases h : m.policies[arn]? with
    | none =>
        have hfind : find arn m.counted = .error (.misuse .noPolicy) m.counted := find_of_none h
        refine Program.meets_of_error (t := m.counted) (e := .misuse .noPolicy) ?_ ⟨rfl, by simp⟩
        rw [attach, Program.bind_of_ok (failNext_of_not_mem hfail),
          Program.bind_of_ok (count_run m), Program.bind_of_error hfind]
    | some p => exact Program.meets_of_ok (attach_of_some h hfail) (contents_attached h rfl)

/-- Attaching changes nothing but attachments. -/
theorem keeps_attach (role arn : String) : Program.Keeps contents (attach role arn) :=
  fun m => (minor_attach role arn m).outcome (fun _ _ h => h) fun _ _ h => h.1

theorem minor_detach (role arn : String) : Minor (detach role arn) := by
  intro m
  by_cases hfail : .detach ∈ m.failures
  · refine Program.meets_of_error (t := { m with failures := m.failures.erase .detach })
      (e := injected .detach) ?_ ⟨rfl, by simp [injected]⟩
    rw [detach, Program.bind_of_error (failNext_of_mem hfail)]
  · cases h : m.policies[arn]? with
    | none =>
        refine Program.meets_of_error (t := m) (e := .misuse .noPolicy) ?_ ⟨rfl, by simp⟩
        rw [detach, Program.bind_of_ok (failNext_of_not_mem hfail),
          Program.bind_of_error (find_of_none h)]
    | some p =>
        obtain ⟨n, hn, -, hok | herror⟩ := detach_of_some role h hfail
        · exact Program.meets_of_ok hok (contents_attached h hn)
        · exact Program.meets_of_error herror ⟨contents_attached h hn, by simp [notAttached]⟩

/-- A policy is deleted, even if it turns out to be attached. -/
theorem delete_meets (m : PolicyMemory) (arn : String) :
    (delete arn).Meets m (fun _ n => n.contents = m.contents.erase arn)
      fun e n => (n.contents = m.contents ∨ n.contents = m.contents.erase arn) ∧
        e ≠ .misuse .tooManyVersions := by
  cases h : m.policies[arn]? with
  | none =>
      have hfind : find arn m.counted = .error (.misuse .noPolicy) m.counted := find_of_none h
      refine Program.meets_of_error (t := m.counted) (e := .misuse .noPolicy) ?_ ⟨.inl rfl, by simp⟩
      rw [delete, Program.bind_of_ok (count_run m), Program.bind_of_error hfind]
  | some p =>
      set n : PolicyMemory := { m.counted with policies := m.policies.erase arn } with hn
      have herased : n.contents = m.contents.erase arn := contents_erase rfl
      have hfind : find arn m.counted = .ok p m.counted := find_of_some h
      have herase : (modify fun m => { m with policies := m.policies.erase arn } :
          Program PolicyMemory IamError PUnit) m.counted = .ok ⟨⟩ n := rfl
      by_cases hfree : p.attached.isEmpty
      · refine Program.meets_of_ok (a := ()) (t := n) ?_ herased
        rw [delete, Program.bind_of_ok (count_run m), Program.bind_of_ok hfind,
          Program.bind_of_ok herase]
        simp [hfree]
        rfl
      · refine Program.meets_of_error (t := n) (e := .misuse .stillAttached) ?_
          ⟨.inr herased, by simp⟩
        rw [delete, Program.bind_of_ok (count_run m), Program.bind_of_ok hfind,
          Program.bind_of_ok herase]
        simp [hfree]
        rfl

end PolicyMemory

end PgSteward
