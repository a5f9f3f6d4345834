import PgSteward.Proofs.PolicyNumbers
import PgSteward.Proofs.ShardCalls
import PgSteward.Proofs.ShardSearch

/-!
# The shard mirrors its users

`Mirrors` says that a store holds the statements of some users and no other: the statements are
those of the users, and every policy is `WellKept`, that is, it is kept under the name of a policy
of the shard, is neither empty nor too long, and has one version.

`Mirrors.ensure` and `Mirrors.remove_ok` are the steps: ensuring a user puts its statement in or
mends it, whether the attachments succeed or not, and removing a user takes its statement out.  A
removal that fails leaves the statements as they are (`Mirrors.remove_error`).
-/

namespace PgSteward

open PolicyMemory

/-! ## Statements -/

/-- The statements of some policies. -/
def StoredPolicy.statementsOf (policies : NameMap StoredPolicy) : List PolicyStatement :=
  policies.toList.flatMap fun e => e.2.document.statements

/-- The statements that let users connect as their roles. -/
def ShardSettings.statementsFor (s : ShardSettings) (users : NameMap String) :
    List PolicyStatement :=
  users.toList.map fun u => s.statement u.1 u.2

open StoredPolicy (statementsOf)

theorem statementsOf_perm {policies : NameMap StoredPolicy} {arn : String} {p : StoredPolicy}
    (h : policies[arn]? = some p) :
    (statementsOf policies).Perm (p.document.statements ++ statementsOf (policies.erase arn)) :=
  (NameMap.toList_perm_of_getElem? h).flatMap_right _

theorem statementsOf_insert_perm (policies : NameMap StoredPolicy) (arn : String)
    (p : StoredPolicy) :
    (statementsOf (policies.insert arn p)).Perm
      (p.document.statements ++ statementsOf (policies.erase arn)) :=
  (NameMap.toList_insert_perm policies arn p).flatMap_right _

section

variable (s : ShardSettings) {users : NameMap String} {user role : String}

theorem statementsFor_perm (h : users[user]? = some role) :
    (s.statementsFor users).Perm (s.statement user role :: s.statementsFor (users.erase user)) :=
  (NameMap.toList_perm_of_getElem? h).map _

theorem statementsFor_insert_perm (users : NameMap String) (user role : String) :
    (s.statementsFor (users.insert user role)).Perm
      (s.statement user role :: s.statementsFor (users.erase user)) :=
  (NameMap.toList_insert_perm users user role).map _

theorem userIdOf_injective {u v : String} (h : userIdOf u = userIdOf v) : u = v := by
  unfold userIdOf at h
  rw [String.append_left_inj, String.append_right_inj] at h
  exact h

theorem isFor_statement (u r v : String) :
    (s.statement u r).isFor (userIdOf v) = decide (u = v) := by
  have hid : (s.statement u r).userId? = some (userIdOf u) := by
    simp [ShardSettings.statement, PolicyStatement.userId?]
  rw [PolicyStatement.isFor, hid]
  by_cases h : u = v
  · simp [h]
  · have hids : userIdOf u ≠ userIdOf v := fun e => h (userIdOf_injective e)
    simp [h, hids]

/-- A statement with another resource is the statement of another role. -/
theorem statement_with_resource (u r r' : String) :
    { s.statement u r with resource := (s.statement u r').resource } = s.statement u r' := rfl

/-- A statement that users should have is the statement of one of them. -/
theorem mem_statementsFor {st : PolicyStatement} :
    st ∈ s.statementsFor users ↔ ∃ u r, users[u]? = some r ∧ s.statement u r = st := by
  simp only [ShardSettings.statementsFor, List.mem_map, Prod.exists,
    Std.ExtTreeMap.mem_toList_iff_getElem?_eq_some]

/-- None of the statements is for someone who is no user. -/
theorem free_statementsFor (h : users[user]? = none) :
    Free (userIdOf user) (s.statementsFor users) := by
  intro st hst
  obtain ⟨u, r, hu, rfl⟩ := (mem_statementsFor s).mp hst
  rw [isFor_statement, decide_eq_false_iff_not]
  rintro rfl
  rw [h] at hu
  cases hu

/-- One of the statements is for each user. -/
theorem countP_statementsFor (h : users[user]? = some role) :
    (s.statementsFor users).countP (·.isFor (userIdOf user)) = 1 := by
  have hrest : Free (userIdOf user) (s.statementsFor (users.erase user)) :=
    free_statementsFor s (by simp)
  rw [(statementsFor_perm s h).countP_eq, List.countP_cons, free_iff_countP.mp hrest,
    isFor_statement]
  simp

theorem statementsFor_nodup (users : NameMap String) : (s.statementsFor users).Nodup := by
  refine List.pairwise_map.mpr (users.distinct_keys_toList.imp ?_)
  intro a b hne he
  have := isFor_statement s a.1 a.2 b.1
  rw [he, isFor_statement] at this
  simp at this
  exact hne (by rw [this]; exact Std.ReflCmp.compare_self)

end

/-! ## The invariant -/

/-- A policy is kept as the shard keeps its policies. -/
structure ShardSettings.WellKept (s : ShardSettings) (arn : String) (p : StoredPolicy) : Prop where
  /-- It is kept under the resource name of its name. -/
  keyed : arn = arnOf p.name
  /-- Its name is that of a policy of the shard. -/
  named : ∃ n, p.name = s.policyName n
  /-- It has a statement. -/
  nonempty : p.document.statements ≠ []
  /-- It has no more statements than it may. -/
  bounded : p.document.statements.length ≤ s.limit
  /-- It has one version, which is the default and is older than the next one. -/
  versioned : p.versions = [(p.defaultVersion, p.document)] ∧
    ∃ n, n < p.nextVersion ∧ p.defaultVersion = versionName n

theorem ShardSettings.wellKept_detached {s : ShardSettings} {arn : String} {p : StoredPolicy} :
    s.WellKept arn p.detached ↔ s.WellKept arn p :=
  ⟨fun h => ⟨h.keyed, h.named, h.nonempty, h.bounded, h.versioned⟩,
    fun h => ⟨h.keyed, h.named, h.nonempty, h.bounded, h.versioned⟩⟩

/-- A store holds the statements of some users, in policies that are kept well. -/
structure Mirrors (s : ShardSettings) (users : NameMap String) (m : PolicyMemory) : Prop where
  /-- The statements of all policies are those of the users. -/
  statements : (statementsOf m.policies).Perm (s.statementsFor users)
  /-- Every policy is kept well. -/
  policies : ∀ arn p, m.policies[arn]? = some p → s.WellKept arn p

theorem arnOf_injective {a b : String} (h : arnOf a = arnOf b) : a = b := by
  unfold arnOf at h
  rw [String.append_right_inj] at h
  exact h

namespace ShardSettings.WellKept

variable {s : ShardSettings} {arn : String} {p : StoredPolicy}

/-- A policy that is kept well is well formed. -/
theorem wellFormed (h : s.WellKept arn p) : p.WellFormed := by
  obtain ⟨hversions, n, hlt, hdefault⟩ := h.versioned
  have hnext : versionName p.nextVersion ≠ p.defaultVersion := by
    rw [hdefault]
    intro he
    have := versionName_injective he
    omega
  constructor <;> rw [hversions]
  · simp
  · simp
  · simpa using hnext
  · exact (by decide : 1 < versionLimit)

/-- The versions of a policy with another document. -/
theorem replaced_versions (h : s.WellKept arn p) (document : PolicyDocument) :
    (p.replaced document).versions = [(versionName p.nextVersion, document)] := by
  have hne := h.wellFormed.default_ne_next
  rw [StoredPolicy.replaced, StoredPolicy.dropVersion, StoredPolicy.addVersion, h.versioned.1]
  simp [hne.symm]

/-- A policy that is kept well stays so with other statements. -/
theorem replaced (h : s.WellKept arn p) {document : PolicyDocument}
    (hne : document.statements ≠ []) (hle : document.statements.length ≤ s.limit) :
    s.WellKept arn (p.replaced document) where
  keyed := h.keyed
  named := h.named
  nonempty := by rw [h.wellFormed.replaced_document]; exact hne
  bounded := by rw [h.wellFormed.replaced_document]; exact hle
  versioned := by
    rw [h.replaced_versions, h.wellFormed.replaced_document]
    exact ⟨rfl, p.nextVersion, Nat.lt_succ_self _, rfl⟩

/-- A new policy of the shard with one statement is kept well. -/
theorem fresh (hlimit : 1 ≤ s.limit) (n : Nat) (st : PolicyStatement) :
    s.WellKept (arnOf (s.policyName n))
      (.fresh (s.policyName n) { statements := [st] }) := by
  have hdocument : (StoredPolicy.fresh (s.policyName n) { statements := [st] }).document =
      { statements := [st] } := by
    simp [StoredPolicy.document, StoredPolicy.fresh]
  refine ⟨rfl, ⟨n, rfl⟩, ?_, ?_, ?_⟩
  · rw [hdocument]
    simp
  · rw [hdocument]
    exact hlimit
  · rw [hdocument]
    exact ⟨rfl, 1, Nat.lt_succ_self _, rfl⟩

end ShardSettings.WellKept

namespace Mirrors

variable {s : ShardSettings} {users : NameMap String} {m n : PolicyMemory}

theorem statementsOf_contents (m : PolicyMemory) :
    statementsOf m.contents = statementsOf m.policies := by
  simp [statementsOf, contents, Std.ExtTreeMap.toList_map, List.flatMap_map]

/-- Attachments make no difference. -/
theorem congr (h : Mirrors s users m) (hn : n.contents = m.contents) : Mirrors s users n := by
  constructor
  · rw [← statementsOf_contents, hn, statementsOf_contents]
    exact h.statements
  · intro arn q hq
    obtain ⟨p, hp, he⟩ := exists_of_contents hn hq
    rw [← ShardSettings.wellKept_detached, ← he, ShardSettings.wellKept_detached]
    exact h.policies arn p hp

/-- A policy is put into the place of another one with the same resource name, or into a free
place. -/
theorem insert (h : Mirrors s users m) {users' : NameMap String} {arn : String} {p : StoredPolicy}
    (hn : n.policies = m.policies.insert arn p) (hkept : s.WellKept arn p)
    (hperm : (p.document.statements ++ statementsOf (m.policies.erase arn)).Perm
      (s.statementsFor users')) : Mirrors s users' n := by
  constructor
  · rw [hn]
    exact (statementsOf_insert_perm m.policies arn p).trans hperm
  · intro a q hq
    rw [hn, Std.ExtTreeMap.getElem?_insert] at hq
    by_cases ha : arn = a
    · subst ha
      rw [if_pos Std.ReflCmp.compare_self] at hq
      cases hq
      exact hkept
    · exact h.policies a q (by simpa [ha] using hq)

/-- A policy is taken away. -/
theorem erase (h : Mirrors s users m) {users' : NameMap String} {arn : String}
    (hn : n.policies = m.policies.erase arn)
    (hperm : (statementsOf (m.policies.erase arn)).Perm (s.statementsFor users')) :
    Mirrors s users' n := by
  constructor
  · rw [hn]
    exact hperm
  · intro a q hq
    rw [hn, Std.ExtTreeMap.getElem?_erase] at hq
    split at hq
    · cases hq
    · exact h.policies a q hq

/-- A policy gets other statements. -/
theorem replace (h : Mirrors s users m) {users' : NameMap String} {policy : ManagedPolicy}
    {p : StoredPolicy} (hp : m.policies[policy.arn]? = some p)
    (hpolicy : policy = p.managed policy.arn) (statements : List PolicyStatement)
    (hne : statements ≠ []) (hle : statements.length ≤ s.limit)
    (hperm : (statements ++ statementsOf (m.policies.erase policy.arn)).Perm
      (s.statementsFor users')) :
    ∃ n q, (Sharder.inMemory s).replaceStatements policy statements m = .ok () n ∧
      n.policies[policy.arn]? = some q ∧ q.document.statements = statements ∧
      Mirrors s users' n := by
  have hkept := h.policies _ _ hp
  have hdefault : policy.versionId = p.defaultVersion := by rw [hpolicy]; rfl
  refine ⟨_, p.replaced { policy.document with statements },
    Sharder.replaceStatements_run statements hp hdefault hkept.wellFormed,
    by simp, ?_, h.insert rfl (hkept.replaced hne hle) ?_⟩
  · rw [hkept.wellFormed.replaced_document]
  · rw [hkept.wellFormed.replaced_document]
    exact hperm

end Mirrors

/-! ## Listing the policies -/

namespace Sharder

variable {s : ShardSettings} {m : PolicyMemory}

/-- The policies of a store in the order of the shard. -/
def listed (s : ShardSettings) (m : PolicyMemory) : List ManagedPolicy :=
  (m.policies.toList.map fun e => e.2.managed e.1).mergeSort s.inOrder

theorem policies_run : (inMemory s).policies m = .ok (listed s m) m :=
  Program.bind_of_ok (list_run m)

/-- A policy that is listed is one of the store. -/
theorem mem_listed {policy : ManagedPolicy} (h : policy ∈ listed s m) :
    ∃ p, m.policies[policy.arn]? = some p ∧ policy = p.managed policy.arn := by
  rw [listed, List.mem_mergeSort, List.mem_map] at h
  obtain ⟨⟨arn, p⟩, hmem, rfl⟩ := h
  exact ⟨p, Std.ExtTreeMap.mem_toList_iff_getElem?_eq_some.mp hmem, rfl⟩

/-- A policy of the store is listed. -/
theorem listed_of_some {arn : String} {p : StoredPolicy} (h : m.policies[arn]? = some p) :
    p.managed arn ∈ listed s m := by
  rw [listed, List.mem_mergeSort, List.mem_map]
  exact ⟨(arn, p), Std.ExtTreeMap.mem_toList_iff_getElem?_eq_some.mpr h, rfl⟩

theorem length_listed : (listed s m).length = m.policies.size := by
  rw [listed, List.length_mergeSort, List.length_map, Std.ExtTreeMap.length_toList]

/-- The statements of the policies that are listed are those of the store. -/
theorem statementsIn_listed_perm : (statementsIn (listed s m)).Perm (statementsOf m.policies) := by
  have h := (List.mergeSort_perm (m.policies.toList.map fun e => e.2.managed e.1) s.inOrder)
    |>.flatMap_right fun policy => policy.document.statements
  rw [List.flatMap_map] at h
  exact h

end Sharder

namespace Mirrors

variable {s : ShardSettings} {users : NameMap String} {m : PolicyMemory} {user role : String}

open Sharder (listed)

theorem listed_perm (h : Mirrors s users m) :
    (statementsIn (listed s m)).Perm (s.statementsFor users) :=
  Sharder.statementsIn_listed_perm.trans h.statements

/-- The statement of a user has its place in the shard. -/
theorem exists_place (h : Mirrors s users m) (huser : users[user]? = some role) :
    ∃ place : Place, place.IsOnly (userIdOf user) (listed s m) ∧
      place.statement = s.statement user role := by
  have hcount : (statementsIn (listed s m)).countP (·.isFor (userIdOf user)) = 1 := by
    rw [h.listed_perm.countP_eq]
    exact countP_statementsFor s huser
  obtain ⟨place, hplace⟩ := PgSteward.exists_place hcount
  refine ⟨place, hplace, ?_⟩
  have hmem : place.statement ∈ s.statementsFor users := by
    refine h.listed_perm.mem_iff.mp (List.mem_flatMap.mpr ⟨place.policy, ?_, ?_⟩)
    · rw [hplace.policies]
      simp
    · rw [hplace.statements]
      simp
  obtain ⟨u, r, hu, he⟩ := (mem_statementsFor s).mp hmem
  have hfor := hplace.isFor
  rw [← he, isFor_statement, decide_eq_true_eq] at hfor
  subst hfor
  rw [huser] at hu
  cases hu
  exact he.symm

/-- No statement is for someone who is no user. -/
theorem free_listed (h : Mirrors s users m) (huser : users[user]? = none) :
    Free (userIdOf user) (statementsIn (listed s m)) := fun st hst =>
  free_statementsFor s huser st (h.listed_perm.mem_iff.mp hst)

/-- The policy at the place of a statement, and the statements besides this one. -/
theorem policy_of_place (h : Mirrors s users m) {place : Place}
    (hplace : place.IsOnly (userIdOf user) (listed s m)) (huser : users[user]? = some role)
    (hst : place.statement = s.statement user role) :
    ∃ p, m.policies[place.policy.arn]? = some p ∧ place.policy = p.managed place.policy.arn ∧
      p.document.statements = place.front ++ place.statement :: place.back ∧
      (place.front ++ place.back ++ statementsOf (m.policies.erase place.policy.arn)).Perm
        (s.statementsFor (users.erase user)) := by
  have hlisted : place.policy ∈ listed s m := by
    rw [hplace.policies]
    simp
  obtain ⟨p, hp, hpolicy⟩ := Sharder.mem_listed hlisted
  have hstatements : p.document.statements = place.front ++ place.statement :: place.back := by
    rw [← hplace.statements, hpolicy]
    rfl
  refine ⟨p, hp, hpolicy, hstatements, ?_⟩
  -- both sides are what is left when the statement of the user is dropped
  apply List.Perm.cons_inv (a := place.statement)
  have hall := (statementsOf_perm hp).symm.trans h.statements
  have hfront : (place.front ++ place.statement :: place.back ++
      statementsOf (m.policies.erase place.policy.arn)).Perm
      (place.statement :: (place.front ++ place.back ++
        statementsOf (m.policies.erase place.policy.arn))) :=
    List.Perm.append_right _ List.perm_middle
  rw [hstatements] at hall
  refine hfront.symm.trans (hall.trans ?_)
  rw [hst]
  exact statementsFor_perm s huser

/-! ## Ensuring a user -/

/-- The statement of a user that is there gets the role that is wanted. -/
theorem settle_of_some (h : Mirrors s users m) {old : String} (huser : users[user]? = some old)
    (role : String) :
    ∃ policy n q, (Sharder.inMemory s).settle (userIdOf user) (s.statement user role).resource none
        (listed s m) m = .ok (some policy) n ∧
      n.policies[policy.arn]? = some q ∧ s.statement user role ∈ q.document.statements ∧
      Mirrors s (users.insert user role) n := by
  obtain ⟨place, hplace, hst⟩ := h.exists_place huser
  obtain ⟨p, hp, hpolicy, hstatements, hothers⟩ := h.policy_of_place hplace huser hst
  have hmended : { place.statement with resource := (s.statement user role).resource } =
      s.statement user role := by
    rw [hst, statement_with_resource]
  have hperm : (place.front ++ s.statement user role :: place.back ++
      statementsOf (m.policies.erase place.policy.arn)).Perm
      (s.statementsFor (users.insert user role)) := by
    refine (List.Perm.append_right _ List.perm_middle).trans ?_
    exact (hothers.cons _).trans (statementsFor_insert_perm s users user role).symm
  rw [(Sharder.inMemory s).settle_of_one hplace, hmended]
  by_cases hsame : place.statement.resource = (s.statement user role).resource
  · have hold : place.statement = s.statement user role := by rw [← hmended, ← hsame]
    rw [if_neg (by simpa using hsame)]
    refine ⟨place.policy, m, p, rfl, hp, ?_, ?_⟩
    · rw [hstatements, hold]
      simp
    · refine ⟨(statementsOf_perm hp).trans ?_, h.policies⟩
      rw [hstatements, hold]
      exact hperm
  · have hbound := (h.policies _ _ hp).bounded
    rw [hstatements] at hbound
    obtain ⟨n, q, hrun, hq, hqst, hn⟩ := h.replace hp hpolicy
      (place.front ++ s.statement user role :: place.back) (by simp)
      (by simpa using hbound) hperm
    rw [if_pos hsame]
    refine ⟨place.policy, n, q, Program.bind_of_ok hrun, hq, ?_, hn⟩
    rw [hqst]
    simp

theorem perm_of_new (h : Mirrors s users m) (huser : users[user]? = none) (role : String) :
    (s.statement user role :: statementsOf m.policies).Perm
      (s.statementsFor (users.insert user role)) := by
  refine (h.statements.cons _).trans ?_
  have hsame := statementsFor_insert_perm s users user role
  rw [NameMap.erase_eq_self huser] at hsame
  exact hsame.symm

/-- A policy with room takes the statement of a new user. -/
theorem replace_of_room (h : Mirrors s users m) (huser : users[user]? = none) (role : String)
    {policy : ManagedPolicy} (hpolicy : policy ∈ listed s m)
    (hroom : policy.document.statements.length < s.limit) :
    ∃ n q, (Sharder.inMemory s).replaceStatements policy
        (policy.document.statements ++ [s.statement user role]) m = .ok () n ∧
      n.policies[policy.arn]? = some q ∧ s.statement user role ∈ q.document.statements ∧
      Mirrors s (users.insert user role) n := by
  obtain ⟨p, hp, hmanaged⟩ := Sharder.mem_listed hpolicy
  have hdocument : policy.document = p.document := by rw [hmanaged]; rfl
  have hperm : (policy.document.statements ++ [s.statement user role] ++
      statementsOf (m.policies.erase policy.arn)).Perm
      (s.statementsFor (users.insert user role)) := by
    rw [hdocument, List.append_assoc, List.singleton_append]
    refine List.perm_middle.trans (List.Perm.trans (List.Perm.cons _ ?_) (h.perm_of_new huser role))
    exact (statementsOf_perm hp).symm
  obtain ⟨n, q, hrun, hq, hqst, hn⟩ := h.replace hp hmanaged
    (policy.document.statements ++ [s.statement user role]) (by simp)
    (by rw [List.length_append]; exact hroom) hperm
  refine ⟨n, q, hrun, hq, ?_, hn⟩
  rw [hqst]
  simp

/-- Whether there is a place for a new statement: a policy with room, or a free name for a new
one. -/
def HasPlace (s : ShardSettings) (m : PolicyMemory) : Prop :=
  ((listed s m).find? fun p => p.document.statements.length < s.limit) = none →
    m.policies[arnOf (s.policyName (s.freeNumber (listed s m)))]? = none

/-- There is a place when every policy is kept under the resource name of its name, and there are
fewer of them than numbers. -/
theorem hasPlace_of_keyed
    (hkeyed : ∀ (arn : String) (p : StoredPolicy), m.policies[arn]? = some p → arn = arnOf p.name)
    (hword : m.policies.size < Text.wordLimit) : HasPlace s m := by
  intro _
  cases hp : m.policies[arnOf (s.policyName (s.freeNumber (listed s m)))]? with
  | none => rfl
  | some p =>
      exfalso
      have hlt : (listed s m).length < Text.wordLimit := by
        rw [Sharder.length_listed]
        exact hword
      refine s.policyName_freeNumber_ne hlt _ (Sharder.listed_of_some hp) ?_
      exact (arnOf_injective (hkeyed _ _ hp)).symm

theorem hasPlace_of_size (h : Mirrors s users m) (hword : m.policies.size < Text.wordLimit) :
    HasPlace s m := hasPlace_of_keyed (fun arn p hp => (h.policies arn p hp).keyed) hword

/-- The statement of a new user is put where there is room, or into a new policy. -/
theorem place_of_none (h : Mirrors s users m) (huser : users[user]? = none) (role : String)
    (hlimit : 1 ≤ s.limit) (hplace : HasPlace s m) :
    ∃ arn n q, (Sharder.inMemory s).place (s.statement user role) (listed s m) m = .ok arn n ∧
      n.policies[arn]? = some q ∧ s.statement user role ∈ q.document.statements ∧
      Mirrors s (users.insert user role) n := by
  rw [Sharder.place, show (Sharder.inMemory s).settings = s from rfl]
  cases hroom : (listed s m).find? fun p => p.document.statements.length < s.limit with
  | some policy =>
      have hlength := List.find?_some hroom
      rw [decide_eq_true_eq] at hlength
      obtain ⟨n, q, hrun, hq, hqst, hn⟩ :=
        h.replace_of_room huser role (List.mem_of_find?_eq_some hroom) hlength
      exact ⟨policy.arn, n, q, Program.bind_of_ok hrun, hq, hqst, hn⟩
  | none =>
      have hfree := hplace hroom
      have hcreate := create_of_none { statements := [s.statement user role] } hfree
      have hkept := ShardSettings.WellKept.fresh hlimit (s.freeNumber (listed s m))
        (s.statement user role)
      set name := s.policyName (s.freeNumber (listed s m))
      set policy := StoredPolicy.fresh name { statements := [s.statement user role] } with hpolicy
      have hstatements : policy.document.statements = [s.statement user role] := by
        simp [hpolicy, StoredPolicy.document, StoredPolicy.fresh]
      refine ⟨arnOf name, _, policy, Program.bind_of_ok hcreate, by simp, ?_,
        h.insert rfl hkept ?_⟩
      · rw [hstatements]
        simp
      · rw [hstatements, NameMap.erase_eq_self hfree]
        exact h.perm_of_new huser role

/-- Without a place for it a statement is not put anywhere. -/
theorem place_of_not_hasPlace (hplace : ¬HasPlace s m) (st : PolicyStatement) :
    ∃ e n, (Sharder.inMemory s).place st (listed s m) m = .error e n ∧ n.policies = m.policies := by
  obtain ⟨hroom, htaken⟩ := Classical.not_imp.mp hplace
  obtain ⟨p, hp⟩ := Option.ne_none_iff_exists'.mp htaken
  have hcreate := create_of_some { statements := [st] } hp
  rw [Sharder.place, show (Sharder.inMemory s).settings = s from rfl, hroom]
  exact ⟨_, _, Program.bind_of_error hcreate, rfl⟩

/-- After the statement of a user has been seen to, only attachments are left to make. -/
theorem ensure_run (h : Mirrors s users m) (user role : String) (hlimit : 1 ≤ s.limit)
    (hplace : users[user]? = none → HasPlace s m) :
    ∃ arn n q, (Sharder.inMemory s).ensure user role m =
        (Sharder.inMemory s).attachMissing arn n ∧
      n.policies[arn]? = some q ∧ s.statement user role ∈ q.document.statements ∧
      Mirrors s (users.insert user role) n := by
  rw [Sharder.ensure, Program.bind_of_ok Sharder.policies_run]
  cases huser : users[user]? with
  | some old =>
      obtain ⟨policy, n, q, hsettle, hq, hst, hn⟩ := h.settle_of_some huser role
      exact ⟨policy.arn, n, q, Program.bind_of_ok hsettle, hq, hst, hn⟩
  | none =>
      have hsettle : (Sharder.inMemory s).settle (userIdOf user) (s.statement user role).resource
          none (listed s m) = pure none :=
        (Sharder.inMemory s).settle_of_free (h.free_listed huser) none
      obtain ⟨arn, n, q, hplace, hq, hst, hn⟩ :=
        h.place_of_none huser role hlimit (hplace huser)
      refine ⟨arn, n, q, ?_, hq, hst, hn⟩
      refine (Program.bind_of_ok (congrFun hsettle m)).trans ?_
      exact Program.bind_of_ok hplace

/-- Of the policies only one has the statement of a user. -/
theorem holder_unique (h : Mirrors s users m) {a b : String} {p q : StoredPolicy}
    {st : PolicyStatement} (hp : m.policies[a]? = some p) (hpst : st ∈ p.document.statements)
    (hq : m.policies[b]? = some q) (hqst : st ∈ q.document.statements) : a = b := by
  have hnodup : (p.document.statements ++ statementsOf (m.policies.erase a)).Nodup :=
    ((statementsOf_perm hp).symm.trans h.statements).nodup_iff.mpr (statementsFor_nodup s users)
  by_contra hne
  have hrest : st ∈ statementsOf (m.policies.erase a) := by
    refine List.mem_flatMap.mpr ⟨(b, q), ?_, hqst⟩
    rw [Std.ExtTreeMap.mem_toList_iff_getElem?_eq_some, Std.ExtTreeMap.getElem?_erase]
    simpa [hne] using hq
  exact (List.nodup_append.mp hnodup).2.2 st hpst st hrest rfl

/-- After a user has been ensured, its statement is in a policy that is attached to all login
roles. -/
theorem ensure_ok (h : Mirrors s users m) (hlimit : 1 ≤ s.limit)
    (hword : m.policies.size < Text.wordLimit) {n : PolicyMemory}
    (hrun : (Sharder.inMemory s).ensure user role m = .ok () n) :
    ∃ (arn : String) (q : StoredPolicy), n.policies[arn]? = some q ∧
      s.statement user role ∈ q.document.statements ∧
      ∀ login ∈ s.loginRoles, login ∈ q.attached := by
  obtain ⟨arn, m', p, hensure, hp, hst, -⟩ :=
    h.ensure_run user role hlimit fun _ => h.hasPlace_of_size hword
  rw [hensure] at hrun
  obtain ⟨q, hq, hall⟩ := Sharder.attachMissing_ok hp hrun
  obtain ⟨p', hp', hdetached⟩ :=
    exists_of_contents ((Sharder.keeps_attachMissing arn).of_ok hrun) hq
  obtain rfl : p = p' := Option.some.inj (hp.symm.trans hp')
  refine ⟨arn, q, hq, ?_, hall⟩
  rw [← StoredPolicy.detached_document, ← hdetached]
  exact hst

/-- Ensuring a user leaves the shard with its statement, also when an attachment fails. -/
theorem ensure (h : Mirrors s users m) (user role : String) (hlimit : 1 ≤ s.limit)
    (hword : m.policies.size < Text.wordLimit) :
    Mirrors s (users.insert user role) ((Sharder.inMemory s).ensure user role |>.outcome m).2 := by
  obtain ⟨arn, n, q, hensure, -, -, hn⟩ :=
    h.ensure_run user role hlimit fun _ => h.hasPlace_of_size hword
  have hcontents := Sharder.keeps_attachMissing (s := s) arn n
  rw [Program.outcome, hensure]
  exact hn.congr hcontents

/-- A user that has been ensured has its statement. -/
theorem of_ensure_ok (h : Mirrors s users m) (hlimit : 1 ≤ s.limit) {n : PolicyMemory}
    (hrun : (Sharder.inMemory s).ensure user role m = .ok () n) :
    Mirrors s (users.insert user role) n := by
  have hplace : users[user]? = none → HasPlace s m := by
    intro huser
    by_contra hnone
    obtain ⟨e, n', herror, -⟩ := place_of_not_hasPlace hnone (s.statement user role)
    rw [Sharder.ensure, Program.bind_of_ok Sharder.policies_run] at hrun
    have hsettle : (Sharder.inMemory s).settle (userIdOf user) (s.statement user role).resource
        none (listed s m) = pure none :=
      (Sharder.inMemory s).settle_of_free (h.free_listed huser) none
    have hfail := (Program.bind_of_ok (congrFun hsettle m)).symm.trans hrun
    cases hfail.symm.trans (Program.bind_of_error herror)
  obtain ⟨arn, n', q, hensure, -, -, hn⟩ := h.ensure_run user role hlimit hplace
  rw [hensure] at hrun
  exact hn.congr ((Sharder.keeps_attachMissing arn).of_ok hrun)

/-! ## Removing a user -/

/-- Removing a user takes its statement out of the shard, or it comes down to discarding the policy
that has no other one. -/
theorem remove_run (h : Mirrors s users m) (user : String) :
    (∃ n, (Sharder.inMemory s).remove user m = .ok () n ∧ Mirrors s (users.erase user) n) ∨
      ∃ (arn : String) (p : StoredPolicy),
        (Sharder.inMemory s).remove user m = (Sharder.inMemory s).discard arn m ∧
        m.policies[arn]? = some p ∧
        (statementsOf (m.policies.erase arn)).Perm (s.statementsFor (users.erase user)) := by
  rw [Sharder.remove, Program.bind_of_ok Sharder.policies_run]
  cases huser : users[user]? with
  | none =>
      left
      rw [(Sharder.inMemory s).sequence_removeFrom_of_free (h.free_listed huser),
        NameMap.erase_eq_self huser]
      exact ⟨m, rfl, h⟩
  | some role =>
      obtain ⟨place, hplace, hst⟩ := h.exists_place huser
      obtain ⟨p, hp, hpolicy, hstatements, hothers⟩ := h.policy_of_place hplace huser hst
      rw [(Sharder.inMemory s).sequence_removeFrom_of_one hplace]
      cases hleft : place.front ++ place.back with
      | nil =>
          right
          rw [hleft] at hothers
          exact ⟨place.policy.arn, p, rfl, hp, hothers⟩
      | cons first rest =>
          left
          rw [hleft] at hothers
          have hbound := (h.policies _ _ hp).bounded
          have hshorter := congrArg List.length hleft
          rw [hstatements, List.length_append, List.length_cons] at hbound
          rw [List.length_append] at hshorter
          obtain ⟨n, q, hrun, -, -, hn⟩ :=
            h.replace hp hpolicy (first :: rest) (by simp) (by omega) hothers
          exact ⟨n, hrun, hn⟩

/-- A user that has been removed has no statement, and the others have theirs. -/
theorem remove_ok (h : Mirrors s users m) {n : PolicyMemory}
    (hrun : (Sharder.inMemory s).remove user m = .ok () n) : Mirrors s (users.erase user) n := by
  rcases h.remove_run user with ⟨n', hremove, hn⟩ | ⟨arn, p, hremove, hp, hothers⟩
  · rw [hremove] at hrun
    cases hrun
    exact hn
  · rw [hremove] at hrun
    exact h.erase (Sharder.discard_ok hp hrun) hothers

/-- A user that could not be removed has its statement still. -/
theorem remove_error (h : Mirrors s users m) {n : PolicyMemory} {e : IamError}
    (hrun : (Sharder.inMemory s).remove user m = .error e n) : Mirrors s users n := by
  rcases h.remove_run user with ⟨n', hremove, hn⟩ | ⟨arn, p, hremove, hp, hothers⟩
  · rw [hremove] at hrun
    cases hrun
  · rw [hremove] at hrun
    exact h.congr (Sharder.discard_error hp hrun)

/-- There are no more policies than users. -/
theorem size_le (h : Mirrors s users m) : m.policies.size ≤ users.size := by
  have hall : ∀ entries : List (String × StoredPolicy),
      (∀ e ∈ entries, e.2.document.statements ≠ []) →
        entries.length ≤ (entries.flatMap fun e => e.2.document.statements).length := by
    intro entries
    induction entries with
    | nil => exact fun _ => Nat.le_refl _
    | cons e rest ih =>
        intro hne
        have hfirst := List.length_pos_iff.mpr (hne e (List.mem_cons_self ..))
        have hrest := ih fun other hother => hne other (List.mem_cons_of_mem _ hother)
        rw [List.length_cons, List.flatMap_cons, List.length_append]
        omega
  have hle := hall m.policies.toList fun e he =>
    (h.policies e.1 e.2 (Std.ExtTreeMap.mem_toList_iff_getElem?_eq_some.mp he)).nonempty
  have hlength := h.statements.length_eq
  rw [statementsOf, ShardSettings.statementsFor, List.length_map,
    Std.ExtTreeMap.length_toList] at hlength
  rw [hlength, Std.ExtTreeMap.length_toList] at hle
  exact hle

end Mirrors

/-! ## Policies without room -/

/-- The settings with room for one statement in each policy at least. -/
def ShardSettings.atLeastOne (s : ShardSettings) : ShardSettings :=
  { s with limit := max 1 s.limit }

/-- How the statements of a user are settled does not depend on the settings. -/
theorem Sharder.settle_settings (s t : ShardSettings) (userId : String) (resource : List String)
    (holder : Option ManagedPolicy) (found : List ManagedPolicy) :
    (inMemory s).settle userId resource holder found =
      (inMemory t).settle userId resource holder found := by
  induction found generalizing holder with
  | nil => rfl
  | cons policy rest ih =>
      rw [settle, settle, ih]
      rfl

/-- A policy is never left without a statement, so one that may hold none is full with the first
one. -/
theorem Mirrors.ensure_atLeastOne {s : ShardSettings} {users : NameMap String} {m : PolicyMemory}
    (h : Mirrors s.atLeastOne users m) (user role : String) :
    (Sharder.inMemory s).ensure user role m =
      (Sharder.inMemory s.atLeastOne).ensure user role m := by
  have hfind : (Sharder.listed s m).find? (fun p => p.document.statements.length < s.limit) =
      (Sharder.listed s m).find? (fun p => p.document.statements.length < s.atLeastOne.limit) := by
    by_cases hlimit : 1 ≤ s.limit
    · rw [show s.atLeastOne.limit = s.limit from Nat.max_eq_right hlimit]
    · have hfull : ∀ policy ∈ Sharder.listed s m, 1 ≤ policy.document.statements.length := by
        intro policy hpolicy
        obtain ⟨p, hp, hmanaged⟩ := Sharder.mem_listed hpolicy
        rw [hmanaged]
        exact List.length_pos_iff.mpr (h.policies _ _ hp).nonempty
      have hnone : ∀ limit ≤ 1, (Sharder.listed s m).find?
          (fun p => p.document.statements.length < limit) = none := fun limit hle =>
        List.find?_eq_none.mpr fun policy hpolicy => by
          have hone := hfull policy hpolicy
          rw [decide_eq_true_eq]
          omega
      rw [hnone _ (by omega), hnone]
      show max 1 s.limit ≤ 1
      omega
  have hplace : (Sharder.inMemory s).place (s.statement user role) (Sharder.listed s m) =
      (Sharder.inMemory s.atLeastOne).place (s.statement user role) (Sharder.listed s m) := by
    rw [Sharder.place, show (Sharder.inMemory s).settings = s from rfl, hfind]
    rfl
  have hlisted : Sharder.listed s.atLeastOne m = Sharder.listed s m := rfl
  rw [Sharder.ensure, Program.bind_of_ok Sharder.policies_run,
    show (Sharder.inMemory s).settings = s from rfl, hplace,
    Sharder.settle_settings s s.atLeastOne, Sharder.ensure,
    Program.bind_of_ok Sharder.policies_run, hlisted]
  rfl

end PgSteward
