import PgSteward.Proofs.ShardMirror

/-!
# Settling the statements of a user

A store may hold whatever has been put there: several statements of a user, statements for nobody,
policies that are not of the shard.  When the statements of a user are settled the first of them
stays at its place, with the resource that is wanted, and the others go (`settle_of_first`).

`firstFor` is the policy with the first statement, and `settle_listed` says what a well-formed store
holds afterwards.
-/

namespace PgSteward

open PolicyMemory

variable {userId : String} {resource : List String}

/-! ## In one policy -/

/-- After a statement of the user has been found all its others go. -/
theorem sift_statements_of_found (statements : List PolicyStatement) :
    (sift userId resource true statements).statements =
      statements.filter fun st => !st.isFor userId := by
  induction statements with
  | nil => rfl
  | cons st rest ih =>
      cases hst : st.isFor userId with
      | true => simp [sift, hst, ih]
      | false => simp [sift, hst, ih]

/-- The first statement of the user stays at its place and gets the resource that is wanted, and its
others go. -/
theorem sift_statements_of_first {front back : List PolicyStatement} {st : PolicyStatement}
    (hfront : Free userId front) (hst : st.isFor userId = true) :
    (sift userId resource false (front ++ st :: back)).statements =
      front ++ { st with resource } :: back.filter fun st => !st.isFor userId := by
  induction front with
  | nil => simp [sift, hst, sift_statements_of_found]
  | cons first rest ih =>
      have hfirst := hfront first (List.mem_cons_self ..)
      have hrest := ih fun other hother => hfront other (List.mem_cons_of_mem _ hother)
      simp [sift, hfirst, hrest]

/-- Nothing has changed when it is said so. -/
theorem sift_statements_of_not_changed {found : Bool} {statements : List PolicyStatement}
    (h : (sift userId resource found statements).changed = false) :
    (sift userId resource found statements).statements = statements := by
  induction statements generalizing found with
  | nil => rfl
  | cons st rest ih =>
      cases hst : st.isFor userId with
      | true =>
          cases found with
          | true => simp [sift, hst] at h
          | false =>
              simp only [sift, hst, if_true, Bool.false_eq_true, if_false, Bool.or_eq_false_iff,
                decide_eq_false_iff_not, ne_eq, not_not] at h ⊢
              rw [ih h.1, ← h.2]
      | false =>
          simp only [sift, hst, Bool.false_eq_true, if_false] at h ⊢
          rw [ih h]

/-- Some statements have a first one for a user, or none. -/
theorem free_or_first (userId : String) (statements : List PolicyStatement) :
    Free userId statements ∨ ∃ front st back, statements = front ++ st :: back ∧
      Free userId front ∧ st.isFor userId = true := by
  cases hfind : statements.find? (·.isFor userId) with
  | none =>
      left
      intro st hst
      simpa using List.find?_eq_none.mp hfind st hst
  | some st =>
      right
      obtain ⟨hst, front, back, hsplit, hfront⟩ := List.find?_eq_some_iff_append.mp hfind
      exact ⟨front, st, back, hsplit, fun other hother => by simpa using hfront other hother, hst⟩

/-- Without a statement for a user there is none for it after others have been dropped. -/
theorem free_filter_not (statements : List PolicyStatement) :
    Free userId (statements.filter fun st => !st.isFor userId) := by
  intro st hst
  simpa using (List.mem_filter.mp hst).2

/-! ## A policy -/

/-- A policy after the statements of a user in it have been settled. -/
def StoredPolicy.settled (userId : String) (resource : List String) (found : Bool)
    (p : StoredPolicy) : StoredPolicy :=
  let sifted := sift userId resource found p.document.statements
  if sifted.changed then p.replaced { p.document with statements := sifted.statements } else p

theorem StoredPolicy.WellFormed.settled_statements {p : StoredPolicy} (h : p.WellFormed)
    (found : Bool) : (p.settled userId resource found).document.statements =
      (sift userId resource found p.document.statements).statements := by
  rw [StoredPolicy.settled]
  cases hchanged : (sift userId resource found p.document.statements).changed with
  | true =>
      rw [if_pos rfl, h.replaced_document]
  | false =>
      rw [if_neg (by simp), sift_statements_of_not_changed hchanged]

/-- In a policy without a statement of the user there is nothing to settle. -/
theorem StoredPolicy.settled_of_free {p : StoredPolicy} (h : Free userId p.document.statements)
    (found : Bool) : p.settled userId resource found = p := by
  simp [StoredPolicy.settled, sift_of_free h]

namespace Sharder

variable {s : ShardSettings} {m n : PolicyMemory} {arn user role : String} {p : StoredPolicy}

/-- Whether a policy is one of a store as the store shows it, and well formed. -/
def Shown (m : PolicyMemory) (policy : ManagedPolicy) : Prop :=
  ∃ p, m.policies[policy.arn]? = some p ∧ p.WellFormed ∧ policy = p.managed policy.arn

theorem Shown.congr {policy : ManagedPolicy} (h : Shown m policy)
    (hn : n.policies[policy.arn]? = m.policies[policy.arn]?) : Shown n policy := by
  unfold Shown
  rw [hn]
  exact h

/-! ## In the whole shard -/

/-- Settling goes policy by policy. -/
theorem settle_cons {policy : ManagedPolicy} (h : m.policies[policy.arn]? = some p)
    (hp : p.WellFormed) (hpolicy : policy = p.managed policy.arn) (holder : Option ManagedPolicy)
    (rest : List ManagedPolicy) :
    ∃ n, n.policies = m.policies.insert policy.arn (p.settled userId resource holder.isSome) ∧
      n.failures = m.failures ∧
      (inMemory s).settle userId resource holder (policy :: rest) m =
        (inMemory s).settle userId resource (holder.or
          (if holder.isSome || p.document.statements.any (·.isFor userId) then some policy
            else none)) rest n := by
  have hdocument : policy.document = p.document := by rw [hpolicy]; rfl
  have hdefault : policy.versionId = p.defaultVersion := by rw [hpolicy]; rfl
  rw [settle, sift_found, hdocument, StoredPolicy.settled]
  cases hchanged : (sift userId resource holder.isSome p.document.statements).changed with
  | true =>
      refine ⟨_, ?_, ?_, Program.bind_of_ok (replaceStatements_run _ h hdefault hp)⟩
      · rw [hdocument]
        rfl
      · rfl
  | false => exact ⟨m, (NameMap.insert_eq_self h).symm, rfl, rfl⟩

/-- Once the statement of the user has been found, the policies that are left lose theirs. -/
theorem settle_of_held (userId : String) (resource : List String) {policies : List ManagedPolicy}
    (hshown : ∀ policy ∈ policies, Shown m policy) (hdistinct : (policies.map (·.arn)).Nodup)
    (holder : ManagedPolicy) :
    ∃ n, (inMemory s).settle userId resource (some holder) policies m = .ok (some holder) n ∧
      n.failures = m.failures ∧
      ∀ arn : String, n.policies[arn]? = if arn ∈ policies.map (·.arn)
        then m.policies[arn]?.map (·.settled userId resource true) else m.policies[arn]? := by
  induction policies generalizing m with
  | nil => exact ⟨m, rfl, rfl, fun arn => by simp⟩
  | cons policy rest ih =>
      obtain ⟨p, hp, hwell, hpolicy⟩ := hshown policy (List.mem_cons_self ..)
      rw [List.map_cons, List.nodup_cons] at hdistinct
      obtain ⟨m₁, hm₁, hsame, hstep⟩ : ∃ m₁ : PolicyMemory,
          m₁.policies = m.policies.insert policy.arn (p.settled userId resource true) ∧
            m₁.failures = m.failures ∧
            (inMemory s).settle userId resource (some holder) (policy :: rest) m =
              (inMemory s).settle userId resource (some holder) rest m₁ :=
        settle_cons hp hwell hpolicy (some holder) rest
      have hother : ∀ arn : String, arn ≠ policy.arn → m₁.policies[arn]? = m.policies[arn]? :=
        fun arn hne => by rw [hm₁, NameMap.getElem?_insert_of_ne _ hne]
      obtain ⟨n, hrun, hfailures, hn⟩ := ih
        (fun other hmem => (hshown other (List.mem_cons_of_mem _ hmem)).congr
          (hother _ fun he => hdistinct.1 (he ▸ List.mem_map_of_mem hmem))) hdistinct.2
      refine ⟨n, hstep.trans hrun, hfailures.trans hsame, fun arn => ?_⟩
      rw [hn]
      by_cases harn : arn = policy.arn
      · subst harn
        rw [if_neg hdistinct.1, if_pos (by simp), hm₁, hp]
        simp
      · rw [hother arn harn]
        simp [harn]

/-- The first policy with a statement of the user keeps the first of them, and the policies after it
lose theirs. -/
theorem settle_of_first (resource : List String) {before after : List ManagedPolicy}
    {policy : ManagedPolicy}
    (hshown : ∀ other ∈ before ++ policy :: after, Shown m other)
    (hdistinct : ((before ++ policy :: after).map (·.arn)).Nodup)
    (hbefore : Free userId (statementsIn before)) (hp : m.policies[policy.arn]? = some p)
    (hhas : ¬Free userId p.document.statements) :
    ∃ n, (inMemory s).settle userId resource none (before ++ policy :: after) m =
        .ok (some policy) n ∧ n.failures = m.failures ∧
      n.policies[policy.arn]? = some (p.settled userId resource false) ∧
      ∀ arn : String, arn ≠ policy.arn → n.policies[arn]? = if arn ∈ after.map (·.arn)
        then m.policies[arn]?.map (·.settled userId resource true) else m.policies[arn]? := by
  obtain ⟨p', hp', hwell, hpolicy⟩ := hshown policy (by simp)
  obtain rfl : p' = p := Option.some.inj (hp'.symm.trans hp)
  rw [List.map_append, List.map_cons] at hdistinct
  have hafter := (List.nodup_append.mp hdistinct).2.1
  rw [List.nodup_cons] at hafter
  have hany : p'.document.statements.any (·.isFor userId) = true := by
    rw [← Bool.not_eq_false, List.any_eq_false]
    exact fun h => hhas fun st hst => by simpa using h st hst
  obtain ⟨m₁, hm₁, hsame, hstep⟩ : ∃ m₁ : PolicyMemory,
      m₁.policies = m.policies.insert policy.arn (p'.settled userId resource false) ∧
        m₁.failures = m.failures ∧
        (inMemory s).settle userId resource none (policy :: after) m =
          (inMemory s).settle userId resource (if p'.document.statements.any (·.isFor userId)
            then some policy else none) after m₁ := settle_cons hp' hwell hpolicy none after
  rw [hany, if_pos rfl] at hstep
  have hother : ∀ arn : String, arn ≠ policy.arn → m₁.policies[arn]? = m.policies[arn]? :=
    fun arn hne => by rw [hm₁, NameMap.getElem?_insert_of_ne _ hne]
  obtain ⟨n, hrun, hfailures, hn⟩ := settle_of_held (s := s) userId resource
    (fun other hmem => (hshown other (by simp [hmem])).congr
      (hother _ fun he => hafter.1 (he ▸ List.mem_map_of_mem hmem))) hafter.2 policy
  refine ⟨n, ?_, hfailures.trans hsame, ?_, fun arn hne => ?_⟩
  · rw [settle_append_of_free _ hbefore, hstep, hrun]
  · rw [hn, if_neg hafter.1, hm₁]
    simp
  · rw [hn, hother arn hne]

/-! ## The policies of a store -/

theorem shown_of_mem_listed (hm : m.WellFormed) {policy : ManagedPolicy}
    (h : policy ∈ listed s m) : Shown m policy := by
  obtain ⟨p, hp, hpolicy⟩ := mem_listed h
  exact ⟨p, hp, hm.policies _ _ hp, hpolicy⟩

/-- The policies of a store have resource names of their own. -/
theorem arns_listed_nodup (s : ShardSettings) (m : PolicyMemory) :
    ((listed s m).map (·.arn)).Nodup := by
  have hperm : ((listed s m).map (·.arn)).Perm m.policies.keys := by
    have h := (List.mergeSort_perm (m.policies.toList.map fun e => e.2.managed e.1)
      s.inOrder).map fun policy => policy.arn
    rw [List.map_map] at h
    rw [← Std.ExtTreeMap.map_fst_toList_eq_keys]
    exact h
  exact hperm.nodup_iff.mpr Std.ExtTreeMap.nodup_keys

/-- No statement of a policy is for a user when none of the shard is. -/
theorem free_of_listed (h : Free userId (statementsIn (listed s m)))
    (hp : m.policies[arn]? = some p) : Free userId p.document.statements := fun st hst =>
  h st (List.mem_flatMap.mpr ⟨_, listed_of_some hp, hst⟩)

/-! ## The first policy with a statement for the user -/

/-- The first of some policies with a statement for a user. -/
def firstFor (userId : String) (policies : List ManagedPolicy) : Option ManagedPolicy :=
  policies.find? fun policy => policy.document.statements.any (·.isFor userId)

theorem firstFor_eq_none_iff {policies : List ManagedPolicy} :
    firstFor userId policies = none ↔ Free userId (statementsIn policies) := by
  simp only [firstFor, Free, statementsIn, List.find?_eq_none, List.any_eq_true, not_exists,
    not_and, Bool.not_eq_true, List.mem_flatMap, forall_exists_index, and_imp]
  exact ⟨fun h st policy hpolicy => h policy hpolicy st,
    fun h policy hpolicy st => h st policy hpolicy⟩

/-- The policies before the first one with a statement for the user have none. -/
theorem firstFor_eq_some {policies : List ManagedPolicy} {policy : ManagedPolicy}
    (h : firstFor userId policies = some policy) :
    ¬Free userId policy.document.statements ∧ ∃ before after,
      policies = before ++ policy :: after ∧ Free userId (statementsIn before) := by
  obtain ⟨hany, before, after, hsplit, hbefore⟩ := List.find?_eq_some_iff_append.mp h
  refine ⟨fun hfree => ?_, before, after, hsplit, ?_⟩
  · obtain ⟨st, hst, hfor⟩ := List.any_eq_true.mp hany
    rw [hfree st hst] at hfor
    cases hfor
  · rw [← firstFor_eq_none_iff, firstFor, List.find?_eq_none]
    intro other hother
    simpa using hbefore other hother

/-- The first statement for a user in some policies, which is the one that is kept. -/
def standing (userId : String) (policies : List ManagedPolicy) : Option PolicyStatement :=
  (statementsIn policies).find? (·.isFor userId)

theorem isFor_of_standing {policies : List ManagedPolicy} {st : PolicyStatement}
    (h : standing userId policies = some st) : st.isFor userId = true := by
  obtain ⟨hst, -⟩ := List.find?_eq_some_iff_append.mp h
  exact hst

theorem standing_eq_none_iff {policies : List ManagedPolicy} :
    standing userId policies = none ↔ firstFor userId policies = none := by
  rw [firstFor_eq_none_iff, standing, List.find?_eq_none]
  exact forall₂_congr fun st _ => (Bool.not_eq_true _).to_iff

/-- The first statement for a user is the first one of the first policy that has one. -/
theorem standing_of_firstFor {policies : List ManagedPolicy} {policy : ManagedPolicy}
    (h : firstFor userId policies = some policy) {front back : List PolicyStatement}
    {st : PolicyStatement} (hstatements : policy.document.statements = front ++ st :: back)
    (hfront : Free userId front) (hst : st.isFor userId = true) :
    standing userId policies = some st := by
  obtain ⟨-, before, after, hsplit, hbefore⟩ := firstFor_eq_some h
  refine List.find?_eq_some_iff_append.mpr
    ⟨hst, statementsIn before ++ front, back ++ statementsIn after, ?_, fun other hother => ?_⟩
  · rw [hsplit, statementsIn, List.flatMap_append, List.flatMap_cons, hstatements]
    simp [statementsIn]
  · rcases List.mem_append.mp hother with hother | hother
    · rw [hbefore other hother]
      rfl
    · rw [hfront other hother]
      rfl

/-- The policies of a store after a policy has been put in under a resource name, and the statements
of a user have been dropped from all others. -/
def seated (userId : String) (resource : List String) (policies : NameMap StoredPolicy)
    (arn : String) (p : StoredPolicy) : NameMap StoredPolicy :=
  (policies.map fun _ p => p.settled userId resource true).insert arn p

theorem getElem?_seated_of_ne (policies : NameMap StoredPolicy) {other : String}
    (h : other ≠ arn) : (seated userId resource policies arn p)[other]? =
      policies[other]?.map (·.settled userId resource true) := by
  rw [seated, NameMap.getElem?_insert_of_ne _ h, Std.ExtTreeMap.getElem?_map]

/-- In a shard without a statement for the user nothing else happens. -/
theorem seated_of_free (h : Free userId (statementsIn (listed s m))) (arn : String)
    (p : StoredPolicy) : seated userId resource m.policies arn p = m.policies.insert arn p := by
  have hmap : (m.policies.map fun _ p => p.settled userId resource true) = m.policies := by
    apply Std.ExtTreeMap.ext_getElem?
    intro a
    rw [Std.ExtTreeMap.getElem?_map]
    cases hp : m.policies[a]? with
    | none => rfl
    | some q => rw [Option.map_some, StoredPolicy.settled_of_free (free_of_listed h hp)]
  rw [seated, hmap]

/-- When the statements of a user are settled, the first policy with one of them keeps it, and the
others lose theirs. -/
theorem settle_listed (resource : List String) (hm : m.WellFormed) {policy : ManagedPolicy}
    (hfirst : firstFor userId (listed s m) = some policy) (hp : m.policies[policy.arn]? = some p) :
    ∃ n, (inMemory s).settle userId resource none (listed s m) m = .ok (some policy) n ∧
      n.policies = seated userId resource m.policies policy.arn (p.settled userId resource false) ∧
      n.failures = m.failures := by
  obtain ⟨hhas, before, after, hsplit, hbefore⟩ := firstFor_eq_some hfirst
  have hlisted : policy ∈ listed s m := by
    rw [hsplit]
    simp
  have hshown : ∀ other ∈ before ++ policy :: after, Shown m other := by
    rw [← hsplit]
    exact fun other => shown_of_mem_listed hm
  have hdistinct := arns_listed_nodup s m
  rw [hsplit] at hdistinct
  obtain ⟨p', hp', -, hpolicy⟩ := shown_of_mem_listed hm hlisted
  obtain rfl : p' = p := Option.some.inj (hp'.symm.trans hp)
  have hdocument : policy.document = p'.document := by rw [hpolicy]; rfl
  rw [hdocument] at hhas
  obtain ⟨n, hrun, hfailures, hhere, hothers⟩ :=
    settle_of_first (s := s) resource hshown hdistinct hbefore hp hhas
  refine ⟨n, by rw [hsplit, hrun], ?_, hfailures⟩
  apply Std.ExtTreeMap.ext_getElem?
  intro arn
  by_cases harn : arn = policy.arn
  · rw [harn, hhere, seated, Std.ExtTreeMap.getElem?_insert_self]
  · rw [hothers arn harn, getElem?_seated_of_ne _ harn]
    split
    next => rfl
    next hafter =>
      cases hq : m.policies[arn]? with
      | none => rfl
      | some q =>
          -- A policy that is not settled comes before the one with the statement of the user.
          have hmem : q.managed arn ∈ before ++ policy :: after := by
            rw [← hsplit]
            exact listed_of_some hq
          have hfree : Free userId q.document.statements := by
            rcases List.mem_append.mp hmem with hmem | hmem
            · exact fun st hst => hbefore st (List.mem_flatMap.mpr ⟨_, hmem, hst⟩)
            · rcases List.mem_cons.mp hmem with heq | hmem
              · exact absurd (congrArg ManagedPolicy.arn heq) harn
              · exact absurd (List.mem_map_of_mem hmem) hafter
          rw [Option.map_some, StoredPolicy.settled_of_free hfree]

end Sharder

end PgSteward
