import PgSteward.Proofs.PolicyMemoryCalls

/-!
# What a store can hold

Nothing but a call to a store changes its policies.  So they have come to be what they are by calls,
one after the other, and before the first of them there was none (`PolicyMemory.IsContent`).

Every call, whether it fails or not, leaves the versions of all policies numbered
(`PolicyMemory.numbered_step`), and so does a run (`PolicyMemory.IsContent.numbered`).  So in
whatever a store can hold, the name of the next version is new, and the names after it are too.  A
policy with one of the latter may be well formed, but no store comes to hold it
(`PolicyMemory.not_isContent_of_ahead`).
-/

namespace PgSteward

/-- A call to a store that changes something, or a word to the store about the calls to come. -/
inductive StoreCall where
  | create (name : String) (document : PolicyDocument)
  | createVersion (arn : String) (document : PolicyDocument)
  | deleteVersion (arn versionId : String)
  | attach (role arn : String)
  | detach (role arn : String)
  | delete (arn : String)
  /-- Adds a statement to the default version of a policy. -/
  | pushStatement (name : String) (statement : PolicyStatement)
  /-- Lets the next call of an operation fail. -/
  | fail (call : FailingCall)
  /-- Lets the next detachment find that someone else has made it. -/
  | race

namespace PolicyMemory

/-- What a call leaves behind, whether it fails or not. -/
def step (m : PolicyMemory) : StoreCall → PolicyMemory
  | .create name document => ((create name document).outcome m).2
  | .createVersion arn document => ((createVersion arn document).outcome m).2
  | .deleteVersion arn versionId => ((deleteVersion arn versionId).outcome m).2
  | .attach role arn => ((attach role arn).outcome m).2
  | .detach role arn => ((detach role arn).outcome m).2
  | .delete arn => ((delete arn).outcome m).2
  | .pushStatement name statement => ((pushStatement name statement).outcome m).2
  | .fail call => { m with failures := m.failures ++ [call] }
  | .race => { m with racedDetaches := m.racedDetaches + 1 }

/-- What calls leave behind, one after the other. -/
def run (m : PolicyMemory) (calls : List StoreCall) : PolicyMemory := calls.foldl step m

/-- Whether a store can hold what a store holds: calls lead to these policies. -/
def IsContent (m : PolicyMemory) : Prop :=
  ∃ calls : List StoreCall, (run {} calls).policies = m.policies

/-- Whether all policies have numbered versions. -/
def AllNumbered (m : PolicyMemory) : Prop :=
  ∀ (arn : String) (p : StoredPolicy), m.contents[arn]? = some p → p.Numbered

variable {m n : PolicyMemory} {arn : String} {p : StoredPolicy}

theorem AllNumbered.congr (h : m.AllNumbered) (hn : n.contents = m.contents) : n.AllNumbered := by
  rw [AllNumbered, hn]
  exact h

theorem AllNumbered.insert (h : m.AllNumbered) (hp : p.Numbered)
    (hn : n.contents = m.contents.insert arn p) : n.AllNumbered := by
  rw [AllNumbered, hn]
  exact NameMap.forall_insert h hp arn

theorem AllNumbered.erase (h : m.AllNumbered) (hn : n.contents = m.contents.erase arn) :
    n.AllNumbered := by
  rw [AllNumbered, hn]
  exact NameMap.forall_erase h arn

theorem AllNumbered.of_minor {α : Type} {q : Program PolicyMemory IamError α} (hq : Minor q)
    (h : m.AllNumbered) : (q.outcome m).2.AllNumbered :=
  (hq m).outcome (fun _ _ hn => h.congr hn) fun _ _ hn => h.congr hn.1

theorem AllNumbered.pushStatement (h : m.AllNumbered) (name : String) (s : PolicyStatement) :
    ((PolicyMemory.pushStatement name s).outcome m).2.AllNumbered := by
  cases hp : m.policies[arnOf name]? with
  | none =>
      rw [PolicyMemory.pushStatement, Program.outcome, Program.bind_of_error (find_of_none hp)]
      exact h
  | some p =>
      set pushed : StoredPolicy :=
        { p with versions := StoredPolicy.pushInto p.defaultVersion s p.versions }
      have hrun : PolicyMemory.pushStatement name s m = .ok () (m.withPolicy (arnOf name) pushed) :=
        Program.bind_of_ok (find_of_some hp)
      have hnumbered : p.detached.Numbered :=
        h (arnOf name) p.detached (by rw [getElem?_contents, hp, Option.map_some])
      have hpushed : pushed.detached.Numbered := hnumbered.pushInto p.defaultVersion s
      rw [Program.outcome, hrun]
      exact h.insert hpushed (contents_insert rfl)

/-- A call leaves the versions of all policies numbered. -/
theorem numbered_step (h : m.AllNumbered) (call : StoreCall) : (m.step call).AllNumbered := by
  cases call with
  | create name document =>
      exact (create_meets m name document).outcome
        (fun _ _ hn => h.insert (StoredPolicy.fresh_numbered name document) hn.2)
        fun _ _ hn => h.congr hn.1
  | createVersion arn document =>
      exact (createVersion_meets m arn document).outcome
        (fun _ _ ⟨_, hp, hn⟩ => h.insert ((h arn _ hp).addVersion document) hn)
        fun _ _ hn => h.congr hn.1
  | deleteVersion arn versionId =>
      exact (deleteVersion_meets m arn versionId).outcome
        (fun _ _ ⟨_, hp, hother, hn⟩ => h.insert ((h arn _ hp).dropVersion hother) hn)
        fun _ _ hn => h.congr hn.1
  | attach role arn => exact h.of_minor (minor_attach role arn)
  | detach role arn => exact h.of_minor (minor_detach role arn)
  | delete arn =>
      exact (delete_meets m arn).outcome (fun _ _ hn => h.erase hn)
        fun _ _ hn => hn.1.elim h.congr h.erase
  | pushStatement name statement => exact h.pushStatement name statement
  | fail call => exact h
  | race => exact h

theorem numbered_run (h : m.AllNumbered) (calls : List StoreCall) : (m.run calls).AllNumbered := by
  induction calls generalizing m with
  | nil => exact h
  | cons call rest ih => exact ih (numbered_step h call)

/-- Whatever a store holds has numbered versions. -/
theorem IsContent.numbered (h : m.IsContent) (hp : m.policies[arn]? = some p) : p.Numbered := by
  obtain ⟨calls, hcalls⟩ := h
  have hempty : AllNumbered {} := by
    intro arn q hq
    simp [getElem?_contents] at hq
  refine .of_detached (numbered_run hempty calls arn p.detached ?_)
  rw [getElem?_contents, hcalls, hp, Option.map_some]

/-- No store holds a policy with a version that is still to come. -/
theorem not_isContent_of_ahead (hp : m.policies[arn]? = some p) {k : Nat} (hk : p.nextVersion ≤ k)
    (hmem : versionName k ∈ p.versions.map (·.1)) : ¬m.IsContent :=
  fun h => (h.numbered hp).later_not_mem hk hmem

end PolicyMemory

end PgSteward
