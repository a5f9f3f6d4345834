import PgSteward.Proofs.ShardSeats
import PgSteward.Proofs.StoreContents

/-!
# Removing a user from any store

Removing a user goes policy by policy.  A policy without a statement for the user stays as it is,
one with other statements keeps these, and one with no other is deleted (`StoredPolicy.without`).
A removal fails only when a detachment has been told to fail; what it has not got to by then is as
it was (`remove_cases`).

So a user can be removed from every well-formed store, and what is not for the user stays where it
is (`remove_leaves_removed`).  To remove a user that has just been ensured undoes it
(`remove_of_ensure`).
-/

namespace PgSteward

open PolicyMemory

variable {userId : String}

/-! ## A policy -/

namespace StoredPolicy

variable {p q : StoredPolicy}

/-- A policy without the statements of a user.  It is gone if it had statements for the user and no
others. -/
def without (userId : String) (p : StoredPolicy) : Option StoredPolicy :=
  let kept := p.document.statements.filter fun st => !st.isFor userId
  if kept.length = p.document.statements.length then some p
  else if kept.isEmpty then none
  else some (p.replaced { p.document with statements := kept })

/-- Whether the statements of a user can be taken from a policy: there are none, or the policy is
well formed. -/
def Removable (userId : String) (p : StoredPolicy) : Prop :=
  Free userId p.document.statements ∨ p.WellFormed

/-- Either no statement of a list is for a user, or the others are fewer. -/
theorem free_iff_length {statements : List PolicyStatement} :
    Free userId statements ↔
      (statements.filter fun st => !st.isFor userId).length = statements.length := by
  rw [List.length_filter_eq_length_iff]
  simp [Free]

theorem without_of_free (h : Free userId p.document.statements) : p.without userId = some p :=
  if_pos (free_iff_length.mp h)

theorem without_eq_none_iff : p.without userId = none ↔ p.document.statements ≠ [] ∧
    ∀ st ∈ p.document.statements, st.isFor userId = true := by
  have hempty : (p.document.statements.filter fun st => !st.isFor userId).isEmpty = true ↔
      ∀ st ∈ p.document.statements, st.isFor userId = true := by
    simp [List.isEmpty_iff, List.filter_eq_nil_iff]
  rw [without]
  by_cases hfree : Free userId p.document.statements
  · rw [if_pos (free_iff_length.mp hfree)]
    refine iff_of_false (by simp) fun ⟨hne, hall⟩ => ?_
    obtain ⟨st, hst⟩ := List.exists_mem_of_ne_nil _ hne
    cases (hfree st hst).symm.trans (hall st hst)
  · have hne : p.document.statements ≠ [] := by
      rintro hnil
      exact hfree (by simp [hnil, Free])
    rw [if_neg (mt free_iff_length.mpr hfree), ← hempty]
    split
    next h => simp [hne, h]
    next h => simp [h]

/-- What is left of a policy has no statement for the user, and is the same for others. -/
theorem Removable.without_eq_some (h : p.Removable userId) (hq : p.without userId = some q) :
    Free userId q.document.statements ∧ p.SameForOthers userId q ∧ q.attached = p.attached := by
  by_cases hfree : Free userId p.document.statements
  · rw [without_of_free hfree] at hq
    cases hq
    exact ⟨hfree, .refl userId p, rfl⟩
  · have hwell : p.WellFormed := h.resolve_left hfree
    rw [without, if_neg (mt free_iff_length.mpr hfree)] at hq
    split at hq
    next => cases hq
    next =>
      cases hq
      rw [hwell.replaced_document]
      exact ⟨free_filter_not _, ⟨rfl, by rw [hwell.replaced_document], by
        rw [hwell.replaced_document]; simp⟩, rfl⟩

/-- A policy whose last statement alone is for a user keeps the others, or is gone if there are
none. -/
theorem WellFormed.without_of_added (h : p.WellFormed) {front : List PolicyStatement}
    {st : PolicyStatement} (hstatements : p.document.statements = front ++ [st])
    (hfront : Free userId front) (hst : st.isFor userId = true) :
    (p.without userId).map (fun q => (q.name, q.document)) =
      if front = [] then none else some (p.name, { p.document with statements := front }) := by
  have hkept : (p.document.statements.filter fun st => !st.isFor userId) = front := by
    have hall : (front.filter fun st => !st.isFor userId) = front := by
      rw [List.filter_eq_self]
      intro other hother
      simp [hfront other hother]
    rw [hstatements, List.filter_append, hall]
    simp [hst]
  have hshorter : front.length ≠ p.document.statements.length := by
    rw [hstatements]
    simp
  rw [without, hkept, if_neg hshorter]
  cases front with
  | nil => rfl
  | cons first rest =>
      rw [if_neg (by simp), if_neg (by simp), Option.map_some, h.replaced_document]
      rfl

/-- What is left is left again. -/
theorem Removable.without_without (h : p.Removable userId) :
    (p.without userId).bind (·.without userId) = p.without userId := by
  cases hq : p.without userId with
  | none => rfl
  | some q => rw [Option.bind_some, without_of_free (h.without_eq_some hq).1]

end StoredPolicy

/-- The policies of a store without the statements of a user. -/
def withoutUser (userId : String) (policies : NameMap StoredPolicy) : NameMap StoredPolicy :=
  policies.filterMap fun _ p => p.without userId

theorem getElem?_withoutUser (userId : String) (policies : NameMap StoredPolicy) (arn : String) :
    (withoutUser userId policies)[arn]? = policies[arn]?.bind (·.without userId) := by
  rw [withoutUser, Std.ExtTreeMap.getElem?_filterMap, Option.pbind_eq_bind]

/-- Whether the statements of a user can be taken from every policy of a store. -/
def PolicyMemory.Removable (userId : String) (m : PolicyMemory) : Prop :=
  ∀ (arn : String) (p : StoredPolicy), m.policies[arn]? = some p → p.Removable userId

theorem PolicyMemory.WellFormed.removable {m : PolicyMemory} (hm : m.WellFormed)
    (userId : String) : m.Removable userId := fun arn p hp => .inr (hm.policies arn p hp)

namespace Sharder

variable {s : ShardSettings} {m n : PolicyMemory} {arn user role : String} {p q : StoredPolicy}

/-- The statements of a user are taken from a policy, unless the policy is to be deleted, is
attached to a role and the next detachment has been told to fail. -/
theorem removeFrom_cases {policy : ManagedPolicy} (hp : m.policies[policy.arn]? = some p)
    (hremovable : p.Removable userId) (hpolicy : policy = p.managed policy.arn) :
    (∃ n, (inMemory s).removeFrom userId policy m = .ok () n ∧ n.failures = m.failures ∧
        ∀ arn : String, n.policies[arn]? =
          if policy.arn = arn then p.without userId else m.policies[arn]?) ∨
      .detach ∈ m.failures ∧ ∃ n,
        (inMemory s).removeFrom userId policy m = .error (injected .detach) n ∧
        n.policies = m.policies ∧ n.failures = m.failures.erase .detach := by
  have hdocument : policy.document = p.document := by rw [hpolicy]; rfl
  have hdefault : policy.versionId = p.defaultVersion := by rw [hpolicy]; rfl
  rw [removeFrom, StoredPolicy.without, hdocument]
  by_cases hfree : Free userId p.document.statements
  · have hlength := StoredPolicy.free_iff_length.mp hfree
    rw [if_pos hlength, if_pos hlength]
    refine .inl ⟨m, rfl, rfl, fun arn => ?_⟩
    split
    next harn => rw [← harn, hp]
    next => rfl
  · have hlength := mt StoredPolicy.free_iff_length.mpr hfree
    have hwell : p.WellFormed := hremovable.resolve_left hfree
    rw [if_neg hlength, if_neg hlength]
    split
    next =>
      rcases discard_cases (s := s) hp with ⟨n, hrun, hn, hfailures⟩ | hfailed
      · refine .inl ⟨n, hrun, hfailures, fun arn => ?_⟩
        simp only [hn, Std.ExtTreeMap.getElem?_erase, Std.LawfulEqCmp.compare_eq_iff_eq]
      · exact .inr hfailed
    next =>
      have hreplace := replaceStatements_run (s := s)
        (p.document.statements.filter fun st => !st.isFor userId) hp hdefault hwell
      refine .inl ⟨_, hreplace, rfl, fun arn => ?_⟩
      simp only [withPolicy_policies, counted_policies, Std.ExtTreeMap.getElem?_insert,
        Std.LawfulEqCmp.compare_eq_iff_eq, hdocument]

/-- The statements of a user are taken from one policy after the other, unless a detachment has been
told to fail.  In this case some policies are as they were. -/
theorem removes_cases {policies : List ManagedPolicy}
    (hshown : ∀ policy ∈ policies, ∃ p, m.policies[policy.arn]? = some p ∧
      p.Removable userId ∧ policy = p.managed policy.arn)
    (hdistinct : (policies.map (·.arn)).Nodup) :
    (∃ n, Program.sequence (policies.map ((inMemory s).removeFrom userId)) m = .ok () n ∧
        n.failures = m.failures ∧ ∀ arn : String, n.policies[arn]? =
          if arn ∈ policies.map (·.arn) then m.policies[arn]?.bind (·.without userId)
          else m.policies[arn]?) ∨
      .detach ∈ m.failures ∧ ∃ n,
        Program.sequence (policies.map ((inMemory s).removeFrom userId)) m =
          .error (injected .detach) n ∧
        n.failures = m.failures.erase .detach ∧ ∀ arn : String,
          n.policies[arn]? = m.policies[arn]? ∨
            n.policies[arn]? = m.policies[arn]?.bind (·.without userId) := by
  induction policies generalizing m with
  | nil => exact .inl ⟨m, rfl, rfl, fun arn => by simp⟩
  | cons policy rest ih =>
      rw [List.map_cons, List.nodup_cons] at hdistinct
      obtain ⟨p, hp, hremovable, hpolicy⟩ := hshown policy (List.mem_cons_self ..)
      rcases removeFrom_cases (s := s) hp hremovable hpolicy with
        ⟨m₁, hcall, hsame, hm₁⟩ | ⟨hfail, n, hcall, hn, hfailures⟩
      · have hhere : m₁.policies[policy.arn]? = p.without userId := by rw [hm₁, if_pos rfl]
        have hother : ∀ arn : String, arn ≠ policy.arn → m₁.policies[arn]? = m.policies[arn]? :=
          fun arn hne => by rw [hm₁, if_neg hne.symm]
        have hrest : ∀ other ∈ rest, ∃ p, m₁.policies[other.arn]? = some p ∧
            p.Removable userId ∧ other = p.managed other.arn := by
          intro other hmem
          obtain ⟨q, hq, hshown⟩ := hshown other (List.mem_cons_of_mem _ hmem)
          have hne : other.arn ≠ policy.arn := fun he =>
            hdistinct.1 (he ▸ List.mem_map_of_mem hmem)
          exact ⟨q, (hother _ hne).trans hq, hshown⟩
        rcases ih hrest hdistinct.2 with
          ⟨n, hrun, hfailures, hn⟩ | ⟨hfail, n, hrun, hfailures, hn⟩
        · refine .inl ⟨n, (Program.bind_of_ok hcall).trans hrun, hfailures.trans hsame,
            fun arn => ?_⟩
          rw [hn]
          by_cases harn : arn = policy.arn
          · subst harn
            rw [if_neg hdistinct.1, if_pos (by simp), hhere, hp, Option.bind_some]
          · rw [hother arn harn]
            simp [harn]
        · refine .inr ⟨hsame ▸ hfail, n, (Program.bind_of_ok hcall).trans hrun,
            hsame ▸ hfailures, fun arn => ?_⟩
          by_cases harn : arn = policy.arn
          · subst harn
            rw [hp, Option.bind_some]
            rcases hn policy.arn with h | h
            · exact .inr (h.trans hhere)
            · rw [hhere, hremovable.without_without] at h
              exact .inr h
          · rw [← hother arn harn]
            exact hn arn
      · exact .inr ⟨hfail, n, Program.bind_of_error hcall, hfailures,
          fun arn => .inl (by rw [hn])⟩

/-- A user is removed, unless a detachment has been told to fail.  In this case some policies are as
they were. -/
theorem remove_cases (hm : m.Removable (userIdOf user)) :
    (∃ n, (inMemory s).remove user m = .ok () n ∧
        n.policies = withoutUser (userIdOf user) m.policies) ∨
      .detach ∈ m.failures ∧ ∃ n, (inMemory s).remove user m = .error (injected .detach) n ∧
        n.failures = m.failures.erase .detach ∧ ∀ arn : String,
          n.policies[arn]? = m.policies[arn]? ∨
            n.policies[arn]? = m.policies[arn]?.bind (·.without (userIdOf user)) := by
  have hshown : ∀ policy ∈ listed s m, ∃ p, m.policies[policy.arn]? = some p ∧
      p.Removable (userIdOf user) ∧ policy = p.managed policy.arn := by
    intro policy hpolicy
    obtain ⟨p, hp, hmanaged⟩ := mem_listed hpolicy
    exact ⟨p, hp, hm _ p hp, hmanaged⟩
  rw [remove, Program.bind_of_ok policies_run]
  rcases removes_cases (s := s) hshown (arns_listed_nodup s m) with
    ⟨n, hrun, -, hn⟩ | hfailed
  · refine .inl ⟨n, hrun, ?_⟩
    apply Std.ExtTreeMap.ext_getElem?
    intro arn
    rw [hn, getElem?_withoutUser]
    split
    next => rfl
    next hunlisted =>
      cases hp : m.policies[arn]? with
      | none => rfl
      | some p => exact absurd (List.mem_map_of_mem (listed_of_some hp)) hunlisted
  · exact .inr hfailed

/-- What is left of a store after a user has been removed. -/
structure Removed (user : String) (m n : PolicyMemory) : Prop where
  /-- No statement is for the user. -/
  free : ∀ (arn : String) (q : StoredPolicy), n.policies[arn]? = some q →
    Free (userIdOf user) q.document.statements
  /-- Every policy was there before, with the same statements for others in their order and the same
  attachments. -/
  old : ∀ (arn : String) (q : StoredPolicy), n.policies[arn]? = some q →
    ∃ p, m.policies[arn]? = some p ∧ p.SameForOthers (userIdOf user) q ∧ q.attached = p.attached
  /-- The policies that had statements, all of them for the user, are gone, and no others. -/
  deleted : ∀ (arn : String) (p : StoredPolicy), m.policies[arn]? = some p →
    (n.policies[arn]? = none ↔ p.document.statements ≠ [] ∧
      ∀ st ∈ p.document.statements, st.isFor (userIdOf user) = true)
  /-- A policy without a statement for the user is the same. -/
  untouched : ∀ (arn : String) (p : StoredPolicy), m.policies[arn]? = some p →
    Free (userIdOf user) p.document.statements → n.policies[arn]? = some p

theorem removed_of_withoutUser (hm : m.Removable (userIdOf user))
    (hn : n.policies = withoutUser (userIdOf user) m.policies) : Removed user m n where
  free := by
    intro arn q hq
    rw [hn, getElem?_withoutUser, Option.bind_eq_some_iff] at hq
    obtain ⟨p, hp, hwithout⟩ := hq
    exact ((hm arn p hp).without_eq_some hwithout).1
  old := by
    intro arn q hq
    rw [hn, getElem?_withoutUser, Option.bind_eq_some_iff] at hq
    obtain ⟨p, hp, hwithout⟩ := hq
    exact ⟨p, hp, ((hm arn p hp).without_eq_some hwithout).2⟩
  deleted := by
    intro arn p hp
    rw [hn, getElem?_withoutUser, hp, Option.bind_some, StoredPolicy.without_eq_none_iff]
  untouched := by
    intro arn p hp hfree
    rw [hn, getElem?_withoutUser, hp, Option.bind_some, StoredPolicy.without_of_free hfree]

/-! ## Undoing -/

/-- The documents by their names depend on the names and documents of the policies only. -/
theorem documents_congr (h : ∀ arn : String,
    (n.policies[arn]?.map fun p => (p.name, p.document)) =
      m.policies[arn]?.map fun p => (p.name, p.document)) : n.documents = m.documents := by
  have hmap : (n.policies.map fun _ p => (p.name, p.document)) =
      m.policies.map fun _ p => (p.name, p.document) := by
    apply Std.ExtTreeMap.ext_getElem?
    intro arn
    rw [Std.ExtTreeMap.getElem?_map, Std.ExtTreeMap.getElem?_map]
    exact h arn
  have hpairs := congrArg (fun pairs => pairs.toList.map (·.2)) hmap
  simp only [Std.ExtTreeMap.toList_map, List.map_map] at hpairs
  rw [documents, documents]
  exact congrArg NameMap.ofPairs hpairs

/-- What is left of the policy with the statement of a new user, once the statement has gone again,
is what was there before. -/
theorem Seat.undone (hm : m.WellFormed)
    (hfirst : firstFor (userIdOf user) (listed s m) = none) (hseat : Seat s user role m arn q)
    (hold : ∀ p, m.policies[arn]? = some p →
      p.document.statements ≠ [] ∧ versionName (p.nextVersion + 1) ∉ p.versions.map (·.1))
    (roles : List String) : (q.attachedTo roles).WellFormed ∧
      ((q.attachedTo roles).without (userIdOf user)).map (fun p => (p.name, p.document)) =
        m.policies[arn]?.map fun p => (p.name, p.document) := by
  have hst := statement_isFor s user role
  cases hseat with
  | kept hsome => cases hfirst.symm.trans hsome
  | @added policy p _ _ hp =>
      obtain ⟨hne, hnext⟩ := hold p hp
      set added : PolicyDocument :=
        { p.document with statements := p.document.statements ++ [s.statement user role] }
      have hfree := free_of_listed (firstFor_eq_none_iff.mp hfirst) hp
      have hwell : ((p.replaced added).attachedTo roles).WellFormed :=
        ((hm.policies _ _ hp).replaced hnext added).attachedTo roles
      have hdocument : ((p.replaced added).attachedTo roles).document = added :=
        (hm.policies _ _ hp).replaced_document added
      refine ⟨hwell, ?_⟩
      rw [hwell.without_of_added (congrArg PolicyDocument.statements hdocument) hfree hst,
        if_neg hne, hdocument, hp]
      rfl
  | created _ _ hnone =>
      set created := StoredPolicy.fresh (s.policyName (s.freeNumber (listed s m)))
        { statements := [s.statement user role] }
      have hwell : (created.attachedTo roles).WellFormed :=
        ((StoredPolicy.fresh_numbered _ _).wellFormed
          (show 1 < versionLimit by decide)).attachedTo roles
      have hdocument : (created.attachedTo roles).document =
          { statements := [] ++ [s.statement user role] } :=
        (StoredPolicy.attachedTo_document _ _).trans (StoredPolicy.fresh_document _ _)
      refine ⟨hwell, ?_⟩
      rw [hwell.without_of_added (congrArg PolicyDocument.statements hdocument) (by simp [Free])
        hst, if_pos rfl, hnone]
      rfl

/-- No policy is the first with a statement for a user, when none has one. -/
theorem firstFor_listed_of_free (h : ∀ (arn : String) (p : StoredPolicy),
    m.policies[arn]? = some p → Free userId p.document.statements) :
    firstFor userId (listed s m) = none := by
  rw [firstFor_eq_none_iff]
  intro st hst
  obtain ⟨policy, hpolicy, hmem⟩ := List.mem_flatMap.mp hst
  obtain ⟨p, hp, hmanaged⟩ := mem_listed hpolicy
  rw [hmanaged] at hmem
  exact h _ p hp st hmem

/-- To ensure a user without a statement and then to remove it gives back the documents of all
policies by their names, when none of them is empty.  The policy that gets the statement and loses
it has two more versions, one after the other, so the names of both have to be new.  The settings
may have changed in between. -/
theorem remove_of_ensure (s t : ShardSettings) (role : String) (hm : m.WellFormed)
    (hsize : m.policies.size < Text.wordLimit) (hattach : .attach ∉ m.failures)
    (hdetach : .detach ∉ m.failures)
    (hold : ∀ (arn : String) (p : StoredPolicy), m.policies[arn]? = some p →
      Free (userIdOf user) p.document.statements ∧ p.document.statements ≠ [] ∧
        versionName (p.nextVersion + 1) ∉ p.versions.map (·.1)) :
    ∃ n n', (inMemory t).ensure user role m = .ok () n ∧
      (inMemory s).remove user n = .ok () n' ∧ n'.documents = m.documents := by
  have hfirst : firstFor (userIdOf user) (listed t m) = none :=
    firstFor_listed_of_free fun arn p hp => (hold arn p hp).1
  obtain ⟨arn, q, hseat⟩ : ∃ arn q, Seat t user role m arn q :=
    exists_seat user role fun _ => Mirrors.hasPlace_of_keyed hm.keyed hsize
  obtain ⟨hwell, hundone⟩ := hseat.undone hm hfirst (fun p hp => (hold arn p hp).2) t.loginRoles
  obtain ⟨n, hensure, hn, hsame⟩ | ⟨hmem, -⟩ := ensure_cases hm hseat
  swap
  · exact absurd hmem hattach
  rw [seated_of_free (firstFor_eq_none_iff.mp hfirst)] at hn
  have hremovable : n.Removable (userIdOf user) := by
    intro other p hp
    rw [hn] at hp
    by_cases hother : other = arn
    · rw [hother, Std.ExtTreeMap.getElem?_insert_self] at hp
      cases hp
      exact .inr hwell
    · rw [NameMap.getElem?_insert_of_ne _ hother] at hp
      exact .inl (hold other p hp).1
  obtain ⟨n', hremove, hn'⟩ | ⟨hmem, -⟩ := remove_cases (s := s) hremovable
  swap
  · exact absurd (hsame ▸ hmem) hdetach
  refine ⟨n, n', hensure, hremove, documents_congr fun other => ?_⟩
  rw [hn', getElem?_withoutUser, hn]
  by_cases hother : other = arn
  · rw [hother, Std.ExtTreeMap.getElem?_insert_self, Option.bind_some]
    exact hundone
  · rw [NameMap.getElem?_insert_of_ne _ hother]
    cases hp : m.policies[other]? with
    | none => rfl
    | some p => rw [Option.bind_some, StoredPolicy.without_of_free (hold other p hp).1]

end Sharder

open ShardState (smallShard)

/-- A store with a past whose next detachment finds the role detached by someone else. -/
def PolicyMemory.racedStrewn : PolicyMemory := { PolicyMemory.strewn with racedDetaches := 1 }

/-- The past of the store. -/
def PolicyMemory.strewnCalls : List StoreCall :=
  let overfull := PolicyMemory.arnOf StoredPolicy.overfull.name
  [.create StoredPolicy.roomy.name StoredPolicy.roomy.document,
    .create StoredPolicy.overfull.name {}, .createVersion overfull {}, .createVersion overfull {},
    .createVersion overfull StoredPolicy.overfull.document, .deleteVersion overfull "v1",
    .deleteVersion overfull "v2", .attach "admin" overfull,
    .create StoredPolicy.foreign.name {},
    .pushStatement StoredPolicy.foreign.name (smallShard.statement "alice" "alice"),
    .attach "developer" (PolicyMemory.arnOf StoredPolicy.foreign.name)]

end PgSteward
