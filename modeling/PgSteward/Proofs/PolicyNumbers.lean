import Mathlib.Order.Bounds.Defs
import Mathlib.Tactic.IntervalCases
import Mathlib.Tactic.Push
import PgSteward.Policy.Shard

/-!
# Numbers of policies

A numeral is read back as the number it was written for (`natural?_decimal`), so the name of a
policy of the shard gives its number away (`index?_policyName`).  The number that is taken for a new
policy is the least that no policy has (`isLeast_freeNumber`), and the search for it ends, since some
number up to the length of a list is not on the list.  Hence the name of a new policy is the name of
none that is there, as long as there are fewer policies than a word of 64 bits has values
(`policyName_freeNumber_ne`).
-/

namespace PgSteward

namespace Text

theorem digitsFrom?_append (seen : Nat) (xs ys : List Char) :
    digitsFrom? seen (xs ++ ys) = (digitsFrom? seen xs).bind fun n => digitsFrom? n ys := by
  induction xs generalizing seen with
  | nil => rfl
  | cons c cs ih =>
      simp only [List.cons_append, digitsFrom?]
      cases digit? c with
      | none => rfl
      | some d => simp [ih]

theorem digit?_digitChar {d : Nat} (h : d < 10) : digit? d.digitChar = some d := by
  interval_cases d <;> decide

/-- The digits of a number stand for it. -/
theorem digitsFrom?_decimal (n : Nat) : digitsFrom? 0 (decimal n) = some n := by
  induction n using Nat.strongRecOn with
  | ind n ih =>
      rw [decimal, Nat.toDigits_eq_if (by decide)]
      split
      next hsmall => simp [digitsFrom?, digit?_digitChar hsmall]
      next hlarge =>
        have hrest := ih (n / 10) (by omega)
        have hdigit := digit?_digitChar (d := n % 10) (by omega)
        rw [decimal] at hrest
        rw [digitsFrom?_append, hrest, Option.bind_some, digitsFrom?, hdigit, Option.bind_some,
          digitsFrom?, Nat.div_add_mod']

/-- A numeral starts with no plus sign. -/
theorem dropPlus_decimal (n : Nat) : dropPlus (decimal n) = decimal n := by
  unfold dropPlus
  split
  next cs h =>
    have hplus : '+' ∈ Nat.toDigits 10 n := by
      rw [decimal] at h
      simp [h]
    have := Nat.isDigit_of_mem_toDigits (by decide) (by decide) hplus
    simp at this
  next => rfl

/-- A numeral is read back as the number it was written for. -/
theorem natural?_decimal (n : Nat) : natural? (decimal n) = some n := by
  rw [natural?, dropPlus_decimal]
  split
  next h => exact absurd h Nat.toDigits_ne_nil
  next => exact digitsFrom?_decimal n

theorem naturalBelow?_decimal {limit n : Nat} (h : n < limit) :
    naturalBelow? limit (decimal n) = some n := by
  rw [naturalBelow?, natural?_decimal]
  simp [h]

end Text

namespace ShardSettings

variable (s : ShardSettings)

theorem toList_policyName (n : Nat) :
    (s.policyName n).toList = s.baseName.toList ++ '_' :: Text.decimal n := by
  simp only [policyName, String.toList_append, String.toList_ofList, List.append_assoc]
  rfl

/-- The name of a policy of the shard gives its number away. -/
theorem index?_policyName {n : Nat} (h : n < Text.wordLimit) :
    s.index? (s.policyName n) = some n := by
  have hbase : Text.dropStart? s.baseName.toList (s.policyName n).toList =
      some ('_' :: Text.decimal n) := by
    rw [Text.dropStart?_eq_some_iff, toList_policyName]
  simp [index?, hbase, Text.dropStart?, Text.naturalBelow?_decimal h]

/-- One of the numbers up to the length of a list is not on it. -/
theorem exists_mem_range_not_mem (taken : List Nat) :
    ∃ n ∈ List.range (taken.length + 1), n ∉ taken := by
  by_contra hnone
  push Not at hnone
  have hle := List.nodup_range.length_le_of_subset hnone
  rw [List.length_range] at hle
  omega

/-- The search for the free number ends with it. -/
theorem find?_range_eq_freeNumber (policies : List ManagedPolicy) :
    ((List.range ((policies.filterMap fun p => s.index? p.name).length + 1)).find? fun n =>
      !(policies.filterMap fun p => s.index? p.name).contains n) =
        some (s.freeNumber policies) := by
  set taken := policies.filterMap fun p => s.index? p.name with htaken
  cases hfind : (List.range (taken.length + 1)).find? fun n => !taken.contains n with
  | some n => simp only [freeNumber, ← htaken, hfind, Option.getD_some]
  | none =>
      obtain ⟨n, hn, hfree⟩ := exists_mem_range_not_mem taken
      exact absurd (List.find?_eq_none.mp hfind n hn) (by simpa using hfree)

/-- The search ends after at most as many numbers as there are policies. -/
theorem freeNumber_le_length (policies : List ManagedPolicy) :
    s.freeNumber policies ≤ policies.length := by
  have hlength := List.length_filterMap_le (fun p : ManagedPolicy => s.index? p.name) policies
  have hmem := List.mem_of_find?_eq_some (s.find?_range_eq_freeNumber policies)
  rw [List.mem_range] at hmem
  omega

/-- The free number is the least one that no policy has. -/
theorem isLeast_freeNumber (policies : List ManagedPolicy) :
    IsLeast {n | ∀ p ∈ policies, s.index? p.name ≠ some n} (s.freeNumber policies) := by
  obtain ⟨hfree, -, hbelow⟩ :=
    List.find?_range_eq_some.mp (s.find?_range_eq_freeNumber policies)
  constructor
  · simpa using hfree
  · intro n hn
    by_contra hlt
    have htaken := hbelow n (by omega)
    simp only [Bool.not_not, List.contains_eq_mem, decide_eq_true_eq, List.mem_filterMap] at htaken
    obtain ⟨p, hp, hindex⟩ := htaken
    exact hn p hp hindex

/-- The name taken for a new policy is the name of none that is there. -/
theorem policyName_freeNumber_ne {policies : List ManagedPolicy}
    (h : policies.length < Text.wordLimit) :
    ∀ p ∈ policies, p.name ≠ s.policyName (s.freeNumber policies) := by
  intro p hp hname
  have hle := s.freeNumber_le_length policies
  refine (s.isLeast_freeNumber policies).1 p hp ?_
  rw [hname]
  exact s.index?_policyName (by omega)

end ShardSettings

end PgSteward
