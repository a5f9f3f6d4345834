import PgSteward.Proofs.PolicyOrder
import PgSteward.Proofs.ShardRepair
import PgSteward.Proofs.ShardRuns

/-!
# Where the statement of a user goes

A store may hold whatever has been put there: several statements of a user, statements for nobody,
policies that are not of the shard or that hold more than they may.  When a user is ensured, the
first policy with a statement for it keeps this one; without such a policy the first one with room
takes the statement, and without room a policy is created for it.  `Seat` says which policy has the
statement afterwards, and what this policy is.

All else that is done is to drop the other statements of the user and to attach the policy
(`ensure_of_seat`).  So ensuring a user succeeds, and leaves what is not for the user as it is
(`ensure_leaves_ensured`).  To ensure the user again comes down to attaching the policy
(`ensure_of_holdsOnly`).
-/

namespace PgSteward

open PolicyMemory

variable {userId : String} {resource : List String}

/-! ## The only statement of a user -/

/-- Whether a policy has the only statement of a store that is for a user, and the statement has
the resource that is wanted. -/
structure HoldsOnly (userId : String) (resource : List String) (arn : String) (p : StoredPolicy)
    (m : PolicyMemory) : Prop where
  /-- The policy is in the store. -/
  kept : m.policies[arn]? = some p
  /-- One of its statements is for the user. -/
  one : ∃ front st back, p.document.statements = front ++ st :: back ∧ st.isFor userId = true ∧
    st.resource = resource ∧ Free userId front ∧ Free userId back
  /-- No statement of another policy is. -/
  elsewhere : ∀ other q, m.policies[other]? = some q → other ≠ arn →
    Free userId q.document.statements

/-- Whether a policy is the same as another one for all users but one. -/
structure StoredPolicy.SameForOthers (userId : String) (p q : StoredPolicy) : Prop where
  name : q.name = p.name
  /-- The documents are in the same language. -/
  version : q.document.version = p.document.version
  /-- The statements that are not for the user are the same, in the same order. -/
  statements : (q.document.statements.filter fun st => !st.isFor userId) =
    p.document.statements.filter fun st => !st.isFor userId

theorem StoredPolicy.SameForOthers.refl (userId : String) (p : StoredPolicy) :
    StoredPolicy.SameForOthers userId p p := ⟨rfl, rfl, rfl⟩

/-- Settling the statements of a user keeps those of others. -/
theorem sift_filter_not (found : Bool) (statements : List PolicyStatement) :
    ((sift userId resource found statements).statements.filter fun st => !st.isFor userId) =
      statements.filter fun st => !st.isFor userId := by
  induction statements generalizing found with
  | nil => rfl
  | cons st rest ih =>
      cases hst : st.isFor userId with
      | true =>
          have hmended : ({ st with resource } : PolicyStatement).isFor userId = true := hst
          cases found <;> simp [sift, hst, hmended, ih]
      | false => simp [sift, hst, ih]

namespace StoredPolicy

variable {p : StoredPolicy}

@[simp] theorem settled_attached (p : StoredPolicy) (found : Bool) :
    (p.settled userId resource found).attached = p.attached := by
  rw [settled]
  split <;> rfl

theorem WellFormed.settled_sameForOthers (h : p.WellFormed) (found : Bool) :
    SameForOthers userId p (p.settled userId resource found) where
  name := by
    rw [settled]
    split <;> rfl
  version := by
    rw [settled]
    split
    next => rw [h.replaced_document]
    next => rfl
  statements := by rw [h.settled_statements, sift_filter_not]

/-- A policy that gets a statement for a user at the end is the same for others. -/
theorem WellFormed.added_sameForOthers (h : p.WellFormed) {st : PolicyStatement}
    (hst : st.isFor userId = true) : SameForOthers userId p
      (p.replaced { p.document with statements := p.document.statements ++ [st] }) where
  name := rfl
  version := by rw [h.replaced_document]
  statements := by
    rw [h.replaced_document]
    simp [hst]

/-- The document of a new policy. -/
theorem fresh_document (name : String) (document : PolicyDocument) :
    (StoredPolicy.fresh name document).document = document := by
  simp [StoredPolicy.document, StoredPolicy.fresh]

end StoredPolicy

namespace Sharder

variable {s : ShardSettings} {m n : PolicyMemory} {arn user role : String} {p q : StoredPolicy}

/-! ## The policy with the statement -/

/-- The first of some policies with room for a statement more. -/
def firstWithRoom (limit : Nat) (policies : List ManagedPolicy) : Option ManagedPolicy :=
  policies.find? fun policy => policy.document.statements.length < limit

/-- The policy that has the statement of a user after the user has been ensured, with its resource
name. -/
inductive Seat (s : ShardSettings) (user role : String) (m : PolicyMemory) :
    String → StoredPolicy → Prop
  /-- The first policy with statements for the user keeps the first of them. -/
  | kept {policy : ManagedPolicy} {p : StoredPolicy} :
      firstFor (userIdOf user) (listed s m) = some policy → m.policies[policy.arn]? = some p →
      Seat s user role m policy.arn
        (p.settled (userIdOf user) (s.statement user role).resource false)
  /-- The first policy with room takes the statement. -/
  | added {policy : ManagedPolicy} {p : StoredPolicy} :
      firstFor (userIdOf user) (listed s m) = none →
      firstWithRoom s.limit (listed s m) = some policy → m.policies[policy.arn]? = some p →
      Seat s user role m policy.arn (p.replaced
        { p.document with statements := p.document.statements ++ [s.statement user role] })
  /-- A policy is created for the statement, under the free number. -/
  | created :
      firstFor (userIdOf user) (listed s m) = none → firstWithRoom s.limit (listed s m) = none →
      m.policies[arnOf (s.policyName (s.freeNumber (listed s m)))]? = none →
      Seat s user role m (arnOf (s.policyName (s.freeNumber (listed s m))))
        (.fresh (s.policyName (s.freeNumber (listed s m)))
          { statements := [s.statement user role] })

/-- There is a policy for the statement, unless the user has none yet, no policy has room and the
name for a new one is taken. -/
theorem exists_seat (user role : String)
    (hplace : firstFor (userIdOf user) (listed s m) = none → Mirrors.HasPlace s m) :
    ∃ arn q, Seat s user role m arn q := by
  cases hfirst : firstFor (userIdOf user) (listed s m) with
  | some policy =>
      obtain ⟨p, hp, -⟩ := mem_listed (List.mem_of_find?_eq_some hfirst)
      exact ⟨_, _, .kept hfirst hp⟩
  | none =>
      cases hroom : firstWithRoom s.limit (listed s m) with
      | some policy =>
          obtain ⟨p, hp, -⟩ := mem_listed (List.mem_of_find?_eq_some hroom)
          exact ⟨_, _, .added hfirst hroom hp⟩
      | none => exact ⟨_, _, .created hfirst hroom (hplace hfirst hroom)⟩

/-- The statement that is wanted is for its user. -/
theorem statement_isFor (s : ShardSettings) (user role : String) :
    (s.statement user role).isFor (userIdOf user) = true := by
  rw [isFor_statement, decide_eq_true rfl]

/-- Where no statement is for the user, the policy with its statement is all that changes. -/
theorem place_of_seat (hm : m.WellFormed)
    (hfirst : firstFor (userIdOf user) (listed s m) = none) (hseat : Seat s user role m arn q) :
    ∃ n, (inMemory s).place (s.statement user role) (listed s m) m = .ok arn n ∧
      n.policies = m.policies.insert arn q ∧ n.failures = m.failures := by
  cases hseat with
  | kept hsome => cases hfirst.symm.trans hsome
  | @added policy p _ hroom hp =>
      obtain ⟨p', hp', hwell, hpolicy⟩ :=
        shown_of_mem_listed hm (List.mem_of_find?_eq_some hroom)
      obtain rfl : p' = p := Option.some.inj (hp'.symm.trans hp)
      have hdocument : policy.document = p'.document := by rw [hpolicy]; rfl
      have hdefault : policy.versionId = p'.defaultVersion := by rw [hpolicy]; rfl
      have hreplace := replaceStatements_run (s := s)
        (policy.document.statements ++ [s.statement user role]) hp hdefault hwell
      rw [hdocument] at hreplace
      rw [place, show (inMemory s).settings = s from rfl,
        show (listed s m).find? _ = some policy from hroom]
      dsimp only
      rw [hdocument]
      exact ⟨_, Program.bind_of_ok hreplace, rfl, rfl⟩
  | created _ hroom hfree =>
      rw [place, show (inMemory s).settings = s from rfl,
        show (listed s m).find? _ = none from hroom]
      exact ⟨_, Program.bind_of_ok (create_of_none _ hfree), rfl, rfl⟩

/-- Before the policy with the statement is attached, the other statements of the user have gone,
and nothing else has changed. -/
theorem ensure_of_seat (hm : m.WellFormed) (hseat : Seat s user role m arn q) :
    ∃ n, (inMemory s).ensure user role m = (inMemory s).attachMissing arn n ∧
      n.policies = seated (userIdOf user) (s.statement user role).resource m.policies arn q ∧
      n.failures = m.failures := by
  rw [ensure, Program.bind_of_ok policies_run]
  cases hfirst : firstFor (userIdOf user) (listed s m) with
  | some policy =>
      cases hseat with
      | kept hsome hp =>
          obtain ⟨n, hrun, hn, hfailures⟩ :=
            settle_listed (s.statement user role).resource hm hsome hp
          exact ⟨n, Program.bind_of_ok hrun, hn, hfailures⟩
      | added hnone => cases hfirst.symm.trans hnone
      | created hnone => cases hfirst.symm.trans hnone
  | none =>
      have hfree := firstFor_eq_none_iff.mp hfirst
      have hsettle : (inMemory s).settle (userIdOf user) (s.statement user role).resource none
          (listed s m) m = .ok none m := by
        rw [settle_of_free _ hfree]
        rfl
      obtain ⟨n, hplace, hn, hfailures⟩ := place_of_seat hm hfirst hseat
      refine ⟨n, (Program.bind_of_ok hsettle).trans (Program.bind_of_ok hplace), ?_, hfailures⟩
      rw [hn, seated_of_free hfree]

/-- The statement of a user after the user has been ensured: the one that stands, with the resource
that is wanted, or a new one. -/
def seatedStatement (s : ShardSettings) (user role : String) (m : PolicyMemory) :
    PolicyStatement :=
  match standing (userIdOf user) (listed s m) with
  | some st => { st with resource := (s.statement user role).resource }
  | none => s.statement user role

theorem seatedStatement_resource (s : ShardSettings) (user role : String) (m : PolicyMemory) :
    (seatedStatement s user role m).resource = (s.statement user role).resource := by
  unfold seatedStatement
  split <;> rfl

theorem seatedStatement_isFor (s : ShardSettings) (user role : String) (m : PolicyMemory) :
    (seatedStatement s user role m).isFor (userIdOf user) = true := by
  unfold seatedStatement
  split
  next st h =>
    have hst : st.isFor (userIdOf user) = true := isFor_of_standing h
    exact hst
  next => exact statement_isFor s user role

/-- The policy has one statement for the user. -/
theorem Seat.statements (hm : m.WellFormed) (hseat : Seat s user role m arn q) :
    ∃ front back, q.document.statements = front ++ seatedStatement s user role m :: back ∧
      Free (userIdOf user) front ∧ Free (userIdOf user) back := by
  cases hseat with
  | @kept policy p hfirst hp =>
      have hwell := hm.policies _ _ hp
      obtain ⟨hhas, -⟩ := firstFor_eq_some hfirst
      obtain ⟨p', hp', hpolicy⟩ := mem_listed (List.mem_of_find?_eq_some hfirst)
      obtain rfl : p' = p := Option.some.inj (hp'.symm.trans hp)
      have hdocument : policy.document = p'.document := by rw [hpolicy]; rfl
      rw [hdocument] at hhas
      obtain hall | ⟨front, st, back, hstatements, hfront, hst⟩ :=
        free_or_first (userIdOf user) p'.document.statements
      · exact absurd hall hhas
      · have hstanding := standing_of_firstFor hfirst (hdocument ▸ hstatements) hfront hst
        refine ⟨front, back.filter fun st => !st.isFor (userIdOf user), ?_, hfront,
          free_filter_not back⟩
        rw [hwell.settled_statements, hstatements, sift_statements_of_first hfront hst,
          seatedStatement, hstanding]
  | @added policy p hfirst _ hp =>
      refine ⟨p.document.statements, [], ?_,
        free_of_listed (firstFor_eq_none_iff.mp hfirst) hp, by simp [Free]⟩
      rw [(hm.policies _ _ hp).replaced_document, seatedStatement, standing_eq_none_iff.mpr hfirst]
  | created hfirst _ _ =>
      refine ⟨[], [], ?_, by simp [Free], by simp [Free]⟩
      rw [StoredPolicy.fresh_document, seatedStatement, standing_eq_none_iff.mpr hfirst]
      rfl

/-- Afterwards the policy has the only statement for the user, whatever it is attached to. -/
theorem Seat.holdsOnly (hm : m.WellFormed) (hseat : Seat s user role m arn q) {r : StoredPolicy}
    (hr : r.document = q.document)
    (hn : n.policies = seated (userIdOf user) (s.statement user role).resource m.policies arn r) :
    HoldsOnly (userIdOf user) (s.statement user role).resource arn r n where
  kept := by rw [hn, seated, Std.ExtTreeMap.getElem?_insert_self]
  one := by
    obtain ⟨front, back, hstatements, hfront, hback⟩ := hseat.statements hm
    rw [hr]
    exact ⟨front, _, back, hstatements, seatedStatement_isFor s user role m,
      seatedStatement_resource s user role m, hfront, hback⟩
  elsewhere := by
    intro other o ho hne
    rw [hn, getElem?_seated_of_ne _ hne] at ho
    obtain ⟨p, hp, rfl⟩ := Option.map_eq_some_iff.mp ho
    rw [(hm.policies _ _ hp).settled_statements, sift_statements_of_found]
    exact free_filter_not _

/-! ## Ensuring a user -/

/-- Without a place for its statement a user is not ensured, and no policy changes. -/
theorem ensure_of_no_place (role : String) (hfirst : firstFor (userIdOf user) (listed s m) = none)
    (hplace : ¬Mirrors.HasPlace s m) :
    ∃ e n, (inMemory s).ensure user role m = .error e n ∧ n.policies = m.policies := by
  have hsettle : (inMemory s).settle (userIdOf user) (s.statement user role).resource none
      (listed s m) m = .ok none m := by
    rw [settle_of_free _ (firstFor_eq_none_iff.mp hfirst)]
    rfl
  obtain ⟨e, n, herror, hn⟩ := Mirrors.place_of_not_hasPlace hplace (s.statement user role)
  refine ⟨e, n, ?_, hn⟩
  rw [ensure, Program.bind_of_ok policies_run]
  exact (Program.bind_of_ok hsettle).trans (Program.bind_of_error herror)

/-- A user that has been ensured has a policy for its statement. -/
theorem exists_seat_of_ok (hrun : (inMemory s).ensure user role m = .ok () n) :
    ∃ arn q, Seat s user role m arn q := by
  refine exists_seat user role fun hfirst => ?_
  by_contra hplace
  obtain ⟨e, n', herror, -⟩ := ensure_of_no_place role hfirst hplace
  cases herror.symm.trans hrun

/-- The policy with the statement is attached to all login roles, unless it lacks one and the next
attachment has been told to fail. -/
theorem ensure_cases (hm : m.WellFormed) (hseat : Seat s user role m arn q) :
    (∃ n, (inMemory s).ensure user role m = .ok () n ∧
        n.policies = seated (userIdOf user) (s.statement user role).resource m.policies arn
          (q.attachedTo s.loginRoles) ∧ n.failures = m.failures) ∨
      .attach ∈ m.failures ∧ ∃ n,
        (inMemory s).ensure user role m = .error (injected .attach) n ∧
        n.policies = seated (userIdOf user) (s.statement user role).resource m.policies arn q ∧
        n.failures = m.failures.erase .attach := by
  obtain ⟨m', hensure, hm', hfailures⟩ := ensure_of_seat hm hseat
  have hq : m'.policies[arn]? = some q := by rw [hm', seated, Std.ExtTreeMap.getElem?_insert_self]
  rw [hensure, ← hfailures]
  rcases attachMissing_cases (s := s) hq with ⟨n, hrun, hn, hsame⟩ | ⟨hfail, n, hrun, hn, hsame⟩
  · refine .inl ⟨n, hrun, ?_, hsame⟩
    rw [hn, hm', seated, NameMap.insert_insert, seated]
  · exact .inr ⟨hfail, n, hrun, hn.trans hm', hsame⟩

/-- After a user has been ensured in a well-formed store, a policy has the only statement for it,
with the resource that is wanted, and is attached to all login roles. -/
theorem ensure_holdsOnly (hm : m.WellFormed)
    (hrun : (inMemory s).ensure user role m = .ok () n) :
    ∃ arn p, HoldsOnly (userIdOf user) (s.statement user role).resource arn p n ∧
      ∀ login ∈ s.loginRoles, login ∈ p.attached := by
  obtain ⟨arn, q, hseat⟩ := exists_seat_of_ok hrun
  rcases ensure_cases hm hseat with ⟨n', hok, hn, -⟩ | ⟨-, n', herror, -⟩
  · cases hok.symm.trans hrun
    exact ⟨arn, _, hseat.holdsOnly hm (q.attachedTo_document _) hn, fun login hlogin =>
      StoredPolicy.mem_attachedTo.mpr (.inr hlogin)⟩
  · cases herror.symm.trans hrun

/-- To ensure a user comes down to attaching the policy that has the only statement for it, with the
resource that is wanted. -/
theorem ensure_of_holdsOnly
    (h : HoldsOnly (userIdOf user) (s.statement user role).resource arn p m) :
    (inMemory s).ensure user role m = (inMemory s).attachMissing arn m := by
  obtain ⟨front, st, back, hstatements, hst, hresource, hfront, hback⟩ := h.one
  have hcount : (statementsIn (listed s m)).countP (·.isFor (userIdOf user)) = 1 := by
    have hothers : Free (userIdOf user) (StoredPolicy.statementsOf (m.policies.erase arn)) := by
      intro other hother
      obtain ⟨⟨name, q⟩, hq, hmem⟩ := List.mem_flatMap.mp hother
      rw [Std.ExtTreeMap.mem_toList_iff_getElem?_eq_some, Std.ExtTreeMap.getElem?_erase] at hq
      by_cases hname : name = arn
      · simp [hname] at hq
      · exact h.elsewhere name q (by simpa [Ne.symm hname] using hq) hname other hmem
    rw [statementsIn_listed_perm.countP_eq, (statementsOf_perm h.kept).countP_eq,
      List.countP_append, free_iff_countP.mp hothers, hstatements, List.countP_append,
      List.countP_cons, free_iff_countP.mp hfront, free_iff_countP.mp hback, hst]
    rfl
  obtain ⟨place, hplace⟩ := exists_place hcount
  have hlisted : place.policy ∈ listed s m := by
    rw [hplace.policies]
    simp
  obtain ⟨q, hq, hpolicy⟩ := mem_listed hlisted
  have hmem : place.statement ∈ q.document.statements := by
    have hdocument : place.policy.document = q.document := by rw [hpolicy]; rfl
    rw [← hdocument, hplace.statements]
    simp
  have harn : place.policy.arn = arn := by
    by_contra hne
    cases (h.elsewhere _ q hq hne _ hmem).symm.trans hplace.isFor
  rw [harn] at hq
  obtain rfl : p = q := Option.some.inj (h.kept.symm.trans hq)
  have hsame : place.statement.resource = (s.statement user role).resource := by
    rw [hstatements] at hmem
    rcases List.mem_append.mp hmem with hmem | hmem
    · cases (hfront _ hmem).symm.trans hplace.isFor
    · rcases List.mem_cons.mp hmem with heq | hmem
      · rw [heq, hresource]
      · cases (hback _ hmem).symm.trans hplace.isFor
  have hsettle : (inMemory s).settle (userIdOf user) (s.statement user role).resource none
      (listed s m) m = .ok (some place.policy) m := by
    rw [settle_of_one _ hplace, if_neg (not_not.mpr hsame)]
    rfl
  rw [ensure, Program.bind_of_ok policies_run]
  refine (Program.bind_of_ok hsettle).trans ?_
  dsimp only
  rw [harn]

/-- A policy that is attached to all login roles is attached to no more. -/
theorem attachMissing_of_attached (hp : m.policies[arn]? = some p)
    (h : ∀ login ∈ s.loginRoles, login ∈ p.attached) :
    (inMemory s).attachMissing arn m = .ok () m := by
  have hroles : (inMemory s).store.attachedRoles arn m = .ok p.attached.toList m :=
    attachedRoles_of_some hp
  have hnone : (s.loginRoles.filter fun role => !p.attached.toList.contains role) = [] := by
    rw [List.filter_eq_nil_iff]
    intro login hlogin
    simpa using h login hlogin
  rw [attachMissing, Program.bind_of_ok hroles, show (inMemory s).settings = s from rfl, hnone]
  rfl

/-! ## What is left in the store -/

/-- What is left of a store after a user has been ensured, with a policy under a resource name. -/
structure Ensured (s : ShardSettings) (user role : String) (m n : PolicyMemory) (arn : String)
    (q : StoredPolicy) : Prop where
  /-- The policies are searched in the order of their numbers, and then of their names. -/
  ordered : (listed s m).Pairwise fun a b => s.orderKey a.name ≤ s.orderKey b.name
  /-- The policy has the only statement for the user, with the resource that is wanted. -/
  only : HoldsOnly (userIdOf user) (s.statement user role).resource arn q n
  /-- When there were statements for the user, it is the first policy with one, and the first one
  has kept its place. -/
  kept : ∀ policy, firstFor (userIdOf user) (listed s m) = some policy → policy.arn = arn ∧
    ∀ front st back, policy.document.statements = front ++ st :: back →
      Free (userIdOf user) front → st.isFor (userIdOf user) = true →
      q.document.statements = front ++
        { st with resource := (s.statement user role).resource } ::
          back.filter fun st => !st.isFor (userIdOf user)
  /-- When there was none, it is the first policy with room, and the statement is its last. -/
  added : ∀ policy, firstFor (userIdOf user) (listed s m) = none →
    firstWithRoom s.limit (listed s m) = some policy → policy.arn = arn ∧
      q.document.statements = policy.document.statements ++ [s.statement user role]
  /-- When there was no policy with room either, it is new. -/
  created : firstFor (userIdOf user) (listed s m) = none →
    firstWithRoom s.limit (listed s m) = none → m.policies[arn]? = none ∧
      q.name = s.policyName (s.freeNumber (listed s m)) ∧
      q.document = { statements := [s.statement user role] }
  /-- No other policy is new. -/
  old : ∀ other r, n.policies[other]? = some r → other ≠ arn → ∃ p, m.policies[other]? = some p
  /-- Every policy is still there, with its statements for others in their order.  Only the policy
  with the statement for the user is attached to other roles than before. -/
  others : ∀ other p, m.policies[other]? = some p → ∃ r, n.policies[other]? = some r ∧
    p.SameForOthers (userIdOf user) r ∧ (other ≠ arn → r.attached = p.attached)
  /-- Another policy without a statement for the user is the same. -/
  untouched : ∀ other p, m.policies[other]? = some p → other ≠ arn →
    Free (userIdOf user) p.document.statements → n.policies[other]? = some p
  /-- The policy is attached to the login roles besides the roles that it was attached to. -/
  attached : ∀ login, login ∈ q.attached ↔
    (∃ p, m.policies[arn]? = some p ∧ login ∈ p.attached) ∨ login ∈ s.loginRoles

/-- Whether the policy with the statement was there already or not, its statements for others and
its attachments are those it had. -/
theorem Seat.before (hm : m.WellFormed) (hseat : Seat s user role m arn q) :
    (m.policies[arn]? = none ∧ q.attached = ∅) ∨ ∃ p, m.policies[arn]? = some p ∧
      p.SameForOthers (userIdOf user) q ∧ q.attached = p.attached := by
  cases hseat with
  | @kept policy p _ hp =>
      exact .inr ⟨p, hp, (hm.policies _ _ hp).settled_sameForOthers false, p.settled_attached false⟩
  | @added policy p _ _ hp =>
      exact .inr
        ⟨p, hp, (hm.policies _ _ hp).added_sameForOthers (statement_isFor s user role), rfl⟩
  | created _ _ hfree => exact .inl ⟨hfree, rfl⟩

/-- A store that a policy with the statement has been seated in is as it should be. -/
theorem Seat.ensured (hm : m.WellFormed) (hseat : Seat s user role m arn q)
    (hn : n.policies = seated (userIdOf user) (s.statement user role).resource m.policies arn
      (q.attachedTo s.loginRoles)) :
    Ensured s user role m n arn (q.attachedTo s.loginRoles) where
  ordered := s.pairwise_mergeSort_inOrder _
  only := hseat.holdsOnly hm (q.attachedTo_document _) hn
  kept := by
    intro policy hfirst
    cases hseat with
    | @kept policy' p hfirst' hp =>
        obtain rfl : policy' = policy := Option.some.inj (hfirst'.symm.trans hfirst)
        obtain ⟨p', hp', hpolicy⟩ := mem_listed (List.mem_of_find?_eq_some hfirst)
        obtain rfl : p' = p := Option.some.inj (hp'.symm.trans hp)
        refine ⟨rfl, fun front st back hstatements hfront hst => ?_⟩
        rw [hpolicy] at hstatements
        rw [StoredPolicy.attachedTo_document, (hm.policies _ _ hp).settled_statements,
          show p'.document.statements = front ++ st :: back from hstatements,
          sift_statements_of_first hfront hst]
    | added hnone => cases hfirst.symm.trans hnone
    | created hnone => cases hfirst.symm.trans hnone
  added := by
    intro policy hfirst hroom
    cases hseat with
    | kept hsome => cases hfirst.symm.trans hsome
    | @added policy' p _ hroom' hp =>
        obtain rfl : policy' = policy := Option.some.inj (hroom'.symm.trans hroom)
        obtain ⟨p', hp', hpolicy⟩ := mem_listed (List.mem_of_find?_eq_some hroom)
        obtain rfl : p' = p := Option.some.inj (hp'.symm.trans hp)
        refine ⟨rfl, ?_⟩
        rw [StoredPolicy.attachedTo_document, (hm.policies _ _ hp).replaced_document, hpolicy]
        rfl
    | created _ hnone => cases hroom.symm.trans hnone
  created := by
    intro hfirst hroom
    cases hseat with
    | kept hsome => cases hfirst.symm.trans hsome
    | added _ hsome => cases hroom.symm.trans hsome
    | created _ _ hfree =>
        exact ⟨hfree, rfl, (StoredPolicy.attachedTo_document _ _).trans
          (StoredPolicy.fresh_document _ _)⟩
  old := by
    intro other r hr hne
    rw [hn, getElem?_seated_of_ne _ hne] at hr
    obtain ⟨p, hp, -⟩ := Option.map_eq_some_iff.mp hr
    exact ⟨p, hp⟩
  others := by
    intro other p hp
    by_cases hother : other = arn
    · subst hother
      refine ⟨_, by rw [hn, seated, Std.ExtTreeMap.getElem?_insert_self], ?_, fun h => absurd rfl h⟩
      rcases hseat.before hm with ⟨hnone, -⟩ | ⟨p', hp', hsame, -⟩
      · cases hnone.symm.trans hp
      · obtain rfl : p' = p := Option.some.inj (hp'.symm.trans hp)
        exact ⟨hsame.name, hsame.version, hsame.statements⟩
    · refine ⟨_, by rw [hn, getElem?_seated_of_ne _ hother, hp, Option.map_some],
        (hm.policies _ _ hp).settled_sameForOthers true, fun _ => p.settled_attached true⟩
  untouched := by
    intro other p hp hother hfree
    rw [hn, getElem?_seated_of_ne _ hother, hp, Option.map_some,
      StoredPolicy.settled_of_free hfree]
  attached := by
    intro login
    rw [StoredPolicy.mem_attachedTo]
    rcases hseat.before hm with ⟨hnone, hempty⟩ | ⟨p, hp, -, hattached⟩
    · simp [hnone, hempty]
    · simp [hp, hattached]

/-- A user is ensured in every well-formed store with fewer policies than there are numbers,
whatever the store holds, when no attachment has been told to fail. -/
theorem ensure_leaves_ensured (s : ShardSettings) (user role : String) (m : PolicyMemory)
    (hm : m.WellFormed) (hsize : m.policies.size < Text.wordLimit) (hfail : .attach ∉ m.failures) :
    ∃ n arn q, (inMemory s).ensure user role m = .ok () n ∧ Ensured s user role m n arn q := by
  obtain ⟨arn, q, hseat⟩ : ∃ arn q, Seat s user role m arn q :=
    exists_seat user role fun _ => Mirrors.hasPlace_of_keyed hm.keyed hsize
  rcases ensure_cases hm hseat with ⟨n, hrun, hn, -⟩ | ⟨hmem, -⟩
  · exact ⟨n, arn, _, hrun, hseat.ensured hm hn⟩
  · exact absurd hmem hfail

end Sharder

/-! ## A store with a past -/

/-- A store of policies under the resource names of their names. -/
def PolicyMemory.ofPolicies (policies : List StoredPolicy) : PolicyMemory where
  policies := NameMap.ofPairs (policies.map fun p => (arnOf p.name, p))

/-- A statement without a user. -/
def PolicyStatement.forNobody : PolicyStatement where
  effect := "Deny"
  action := ["rds-db:connect"]
  resource := ["*"]
  patterns := ∅

open ShardState (smallShard)

/-- A policy with more statements than it may have, two of them for Alice, and an old version. -/
def StoredPolicy.overfull : StoredPolicy where
  name := "postgres_access_10"
  versions := [("v3", {}), ("v4", { statements :=
    [smallShard.statement "bob" "bob", smallShard.statement "alice" "former",
      PolicyStatement.forNobody, smallShard.statement "alice" "alice"] })]
  defaultVersion := "v4"
  nextVersion := 5
  attached := .ofList ["admin"]

/-- A policy with room. -/
def StoredPolicy.roomy : StoredPolicy where
  name := "postgres_access_2"
  versions := [("v1", { statements := [smallShard.statement "carol" "carol"] })]
  defaultVersion := "v1"
  nextVersion := 2

/-- A policy that is not of the shard, with one more statement for Alice. -/
def StoredPolicy.foreign : StoredPolicy where
  name := "legacy"
  versions := [("v1", { statements := [smallShard.statement "alice" "alice"] })]
  defaultVersion := "v1"
  nextVersion := 2
  attached := .ofList ["developer"]

/-- A store with these policies. -/
def PolicyMemory.strewn : PolicyMemory := .ofPolicies [.foreign, .overfull, .roomy]

/-- The shard has the policies in the order of their numbers, and the one without a number last. -/
theorem Sharder.listed_strewn : listed smallShard PolicyMemory.strewn =
    [StoredPolicy.roomy, .overfull, .foreign].map fun p => p.managed (arnOf p.name) :=
  smallShard.mergeSort_inOrder_eq (by decide +kernel) (by decide +kernel)

/-- Alice is ensured in the store, although it holds three statements for her: the first one in the
policy with the lower number stays.  So is Dave, who has none, in the policy with room. -/
theorem Sharder.strewn_ensured :
    PolicyMemory.strewn.WellFormed ∧ PolicyMemory.strewn.policies.size < Text.wordLimit ∧
      .attach ∉ PolicyMemory.strewn.failures ∧
      (∃ n q, (inMemory smallShard).ensure "alice" "alice" PolicyMemory.strewn = .ok () n ∧
        Ensured smallShard "alice" "alice" PolicyMemory.strewn n (arnOf "postgres_access_10") q ∧
        q.document.statements = [smallShard.statement "bob" "bob",
          smallShard.statement "alice" "alice", PolicyStatement.forNobody]) ∧
      ∃ n q, (inMemory smallShard).ensure "dave" "dave" PolicyMemory.strewn = .ok () n ∧
        Ensured smallShard "dave" "dave" PolicyMemory.strewn n (arnOf "postgres_access_2") q ∧
        q.document.statements =
          [smallShard.statement "carol" "carol", smallShard.statement "dave" "dave"] := by
  have hm : PolicyMemory.strewn.WellFormed := by decide +kernel
  have hsize : PolicyMemory.strewn.policies.size < Text.wordLimit := by decide +kernel
  have hfail : .attach ∉ PolicyMemory.strewn.failures := by decide
  have hoverfull : firstFor (userIdOf "alice") (listed smallShard PolicyMemory.strewn) =
      some (StoredPolicy.overfull.managed (arnOf "postgres_access_10")) := by
    rw [listed_strewn]
    decide +kernel
  have hnone : firstFor (userIdOf "dave") (listed smallShard PolicyMemory.strewn) = none := by
    rw [listed_strewn]
    decide +kernel
  have hroomy : firstWithRoom smallShard.limit (listed smallShard PolicyMemory.strewn) =
      some (StoredPolicy.roomy.managed (arnOf "postgres_access_2")) := by
    rw [listed_strewn]
    decide +kernel
  obtain ⟨n, arn, q, hrun, halice⟩ :=
    ensure_leaves_ensured smallShard "alice" "alice" _ hm hsize hfail
  obtain ⟨n', arn', q', hrun', hdave⟩ :=
    ensure_leaves_ensured smallShard "dave" "dave" _ hm hsize hfail
  obtain ⟨rfl, hkept⟩ := halice.kept _ hoverfull
  obtain ⟨rfl, hadded⟩ := hdave.added _ hnone hroomy
  have hbob : Free (userIdOf "alice") [smallShard.statement "bob" "bob"] := by
    rw [Free]
    decide +kernel
  have hstatements := hkept [smallShard.statement "bob" "bob"]
    (smallShard.statement "alice" "former") [.forNobody, smallShard.statement "alice" "alice"] rfl
    hbob (statement_isFor smallShard "alice" "former")
  refine ⟨hm, hsize, hfail, ⟨n, q, hrun, halice, ?_⟩, n', q', hrun', hdave, hadded⟩
  rw [hstatements]
  decide +kernel

end PgSteward
