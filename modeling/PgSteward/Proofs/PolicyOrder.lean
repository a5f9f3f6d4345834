import Mathlib.Data.Prod.Lex
import Mathlib.Data.String.Basic
import PgSteward.Policy.Memory
import PgSteward.Proofs.HostPorts
import PgSteward.Proofs.PolicyNumbers
import PgSteward.Proofs.ProgramRuns

/-!
# The names and the order of policies

A name has a number when it is the base name, an underscore and a numeral of a number that a word
holds (`ShardSettings.Numbered`).  Names with zeros or a plus sign in front of the digits have the
number of the digits, so policies may share a number, and names that are not of the shard, or whose
numeral is too large, have none.  These are the names whose number is read (`index?_eq_some_iff`).

Policies come in the order of their keys (`ShardSettings.orderKey`), that is by number and then by
name, and a name without a number comes with the last number of a word.
`Sharder.names_are_fresh_and_sorted` says that the shard works on its listing in this order, and
that the name of a new policy is new to it, with the least number that is free.
-/

namespace PgSteward

open Program

namespace ShardSettings

variable (s : ShardSettings)

/-! ## Numbers of names -/

/-- A name is the base name, an underscore and a numeral of a number that a word holds. -/
def Numbered (name : String) (n : Nat) : Prop :=
  ∃ numeral, name.toList = s.baseName.toList ++ '_' :: numeral ∧ Text.Numeral numeral n ∧
    n < 2 ^ 64

variable {s}

/-- The numbers of names are what is read. -/
theorem index?_eq_some_iff {name : String} {n : Nat} :
    s.index? name = some n ↔ s.Numbered name n := by
  simp only [index?, bind, Option.bind_eq_some_iff, Text.dropStart?_eq_some_iff,
    Text.naturalBelow?_eq_some_iff]
  constructor
  · rintro ⟨_, hname, numeral, rfl, hnumeral⟩
    exact ⟨numeral, hname, hnumeral⟩
  · rintro ⟨numeral, hname, hnumeral⟩
    exact ⟨'_' :: numeral, hname, numeral, rfl, hnumeral⟩

/-! ## The order -/

variable (s)

/-- The key by which a policy of a name is ordered: its number, or the last one of a word if it has
none, and then the name. -/
def orderKey (name : String) : Nat ×ₗ String := toLex ((s.index? name).getD (2 ^ 64 - 1), name)

theorem orderKey_eq (name : String) : s.orderKey name = toLex (s.orderNumber name, name) := rfl

theorem inOrder_iff {a b : ManagedPolicy} :
    s.inOrder a b = true ↔ s.orderKey a.name ≤ s.orderKey b.name := by
  rw [orderKey_eq, orderKey_eq, Prod.Lex.toLex_le_toLex]
  simp [inOrder]

theorem pairwise_mergeSort_inOrder (policies : List ManagedPolicy) :
    (policies.mergeSort s.inOrder).Pairwise fun a b => s.orderKey a.name ≤ s.orderKey b.name := by
  have hsorted : (policies.mergeSort s.inOrder).Pairwise fun a b => s.inOrder a b = true := by
    refine List.pairwise_mergeSort ?_ ?_ policies
    · intro a b c hab hbc
      rw [inOrder_iff] at hab hbc ⊢
      exact hab.trans hbc
    · intro a b
      rw [Bool.or_eq_true, inOrder_iff, inOrder_iff]
      exact le_total _ _
  simpa only [inOrder_iff] using hsorted

/-- Policies of different names have one order only. -/
theorem eq_of_pairwise_orderKey {sorted others : List ManagedPolicy} (hperm : sorted.Perm others)
    (hsorted : sorted.Pairwise fun a b => s.orderKey a.name ≤ s.orderKey b.name)
    (hothers : others.Pairwise fun a b => s.orderKey a.name < s.orderKey b.name) :
    sorted = others := by
  have hdistinct : sorted.Pairwise fun a b => s.orderKey a.name ≠ s.orderKey b.name :=
    (hothers.imp ne_of_lt).perm hperm.symm Ne.symm
  have hstrict : sorted.Pairwise fun a b => s.orderKey a.name < s.orderKey b.name :=
    hsorted.imp₂ (fun _ _ => lt_of_le_of_ne) hdistinct
  exact hperm.eq_of_pairwise (fun _ _ _ _ hab hba => absurd hab hba.not_gt) hstrict hothers

/-- To sort policies of different names comes to their order. -/
theorem mergeSort_inOrder_eq {policies sorted : List ManagedPolicy} (hperm : policies.Perm sorted)
    (hsorted : sorted.Pairwise fun a b => s.orderKey a.name < s.orderKey b.name) :
    policies.mergeSort s.inOrder = sorted :=
  s.eq_of_pairwise_orderKey ((List.mergeSort_perm _ _).trans hperm)
    (s.pairwise_mergeSort_inOrder policies) hsorted

end ShardSettings

/-! ## Listing and naming -/

/-- A name has the number that its numeral says.  The name of a new policy has the least number that
no policy has, and the search for it ends after at most as many numbers as there are policies.  As
long as these are fewer than a word has values, no policy has the name, and the number of the name
is the one that was found.  What the store lists is worked on in the order of the keys. -/
theorem Sharder.names_are_fresh_and_sorted {σ : Type} (sh : Sharder σ) :
    (∀ name n, sh.settings.index? name = some n ↔ sh.settings.Numbered name n) ∧
    (∀ policies : List ManagedPolicy,
      IsLeast {n | ∀ p ∈ policies, sh.settings.index? p.name ≠ some n}
        (sh.settings.freeNumber policies) ∧
      sh.settings.freeNumber policies ≤ policies.length ∧
      sh.settings.policyName (sh.settings.freeNumber policies) =
        sh.settings.baseName ++ "_" ++ toString (sh.settings.freeNumber policies) ∧
      (policies.length < Text.wordLimit →
        (∀ p ∈ policies, p.name ≠ sh.settings.policyName (sh.settings.freeNumber policies)) ∧
        sh.settings.index? (sh.settings.policyName (sh.settings.freeNumber policies)) =
          some (sh.settings.freeNumber policies))) ∧
    ∀ w found t, sh.store.list (policyPath sh.settings.path) w = .ok found t →
      ∃ sorted, sh.policies w = .ok sorted t ∧ sorted.Perm found ∧
        sorted.Pairwise fun a b =>
          sh.settings.orderKey a.name ≤ sh.settings.orderKey b.name := by
  refine ⟨fun name n => ShardSettings.index?_eq_some_iff, fun policies => ?_, ?_⟩
  · have hle := sh.settings.freeNumber_le_length policies
    refine ⟨sh.settings.isLeast_freeNumber policies, hle, rfl, fun hfew => ⟨?_, ?_⟩⟩
    · exact sh.settings.policyName_freeNumber_ne hfew
    · exact sh.settings.index?_policyName (hle.trans_lt hfew)
  · intro w found t hlist
    exact ⟨found.mergeSort sh.settings.inOrder, bind_of_ok hlist, found.mergeSort_perm _,
      sh.settings.pairwise_mergeSort_inOrder found⟩

/-- Policies with a foreign name, a number twice, a number with a zero and one with a plus sign in
front, and a number that no word holds, in the order of the shard. -/
def oddPolicies : List ManagedPolicy :=
  ["postgres_access_0", "postgres_access_00", "postgres_access_+1", "postgres_access_03", "other_0",
    "postgres_access_18446744073709551616"].map fun name =>
      (StoredPolicy.fresh name {}).managed (PolicyMemory.arnOf name)

/-- A store of these policies. -/
def oddNames : PolicyMemory where
  policies := NameMap.ofPairs (oddPolicies.map fun p => (p.arn, .fresh p.name {}))

/-- The shard with odd names. -/
def oddShard : Sharder PolicyMemory := ⟨PolicyMemory.store, {}⟩

theorem oddShard_fresh_and_sorted :
    ∃ found, oddShard.store.list (policyPath oddShard.settings.path) oddNames =
        .ok found oddNames ∧
      found ≠ oddPolicies ∧ oddShard.policies oddNames = .ok oddPolicies oddNames ∧
      oddPolicies.length < Text.wordLimit ∧
      (∀ p ∈ oddPolicies, p.name ≠ "postgres_access_2") ∧
      oddShard.settings.index? "postgres_access_2" = some 2 := by
  obtain ⟨-, hnames, hlisting⟩ := oddShard.names_are_fresh_and_sorted
  obtain ⟨sorted, hsorted, hperm, hpairwise⟩ := hlisting oddNames _ oddNames rfl
  obtain rfl : sorted = oddPolicies :=
    oddShard.settings.eq_of_pairwise_orderKey (hperm.trans (by decide +kernel)) hpairwise
      (by decide +kernel)
  have hlength : oddPolicies.length < Text.wordLimit := by decide
  obtain ⟨-, -, -, hfresh⟩ := hnames oddPolicies
  have htwo : oddShard.settings.freeNumber oddPolicies = 2 := by decide +kernel
  have h := hfresh hlength
  rw [htwo] at h
  exact ⟨_, rfl, by decide +kernel, hsorted, hlength, h⟩

end PgSteward
