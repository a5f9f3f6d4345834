import PgSteward.Proofs.CollectedErrors

/-!
# Errors in groups

An error stands for its leaves, the single errors that it is put together from at any depth.  Errors
may be combined in groups before the groups are combined (`Error.combine_groups`): the leaves and
their order stay the same (`Error.leaves_of_combine`), and so does everything that is read off
them.  The kind of an error is the greatest one of its leaves (`Error.kind_eq_greatestKind_leaves`).
Its text is the texts of its leaves with a mark between them, as long as nothing empty is among what
is combined (`Error.message_of_combine`).

`Error.combine_is_grouping_independent` has it all for errors that are put together from single
ones.
-/

namespace PgSteward.Error

/-! ## Leaves -/

mutual

/-- The single errors that an error is put together from, in order. -/
def leaves : Error → List Error
  | .multiple errors => leavesOfAll errors
  | e => [e]

/-- The single errors that some errors are put together from, in order. -/
def leavesOfAll : List Error → List Error
  | [] => []
  | e :: rest => leaves e ++ leavesOfAll rest

end

theorem leavesOfAll_eq (errors : List Error) : leavesOfAll errors = errors.flatMap leaves := by
  induction errors with
  | nil => rfl
  | cons e rest ih => rw [leavesOfAll, ih, List.flatMap_cons]

theorem leaves_multiple (errors : List Error) :
    (multiple errors).leaves = errors.flatMap leaves := by
  rw [leaves, leavesOfAll_eq]

theorem IsSingle.leaves {e : Error} (h : e.IsSingle) : e.leaves = [e] := by
  cases e with
  | multiple errors => exact absurd rfl (h errors)
  | _ => rfl

/-- The leaves of an error are those of its parts. -/
theorem flatMap_leaves_parts (e : Error) : e.parts.flatMap leaves = e.leaves := by
  cases e with
  | multiple errors => exact (leaves_multiple errors).symm
  | _ => rfl

/-- An error that is put together from single ones has these as its leaves. -/
theorem IsFlat.leaves {e : Error} (h : e.IsFlat) : e.leaves = e.parts := by
  rw [← flatMap_leaves_parts, List.flatMap_congr fun part hpart => (h part hpart).leaves,
    List.flatMap_singleton']

/-- A combined error has all leaves of what is combined, in order. -/
theorem leaves_of_combine {errors : List Error} {e : Error} (h : combine errors = some e) :
    e.leaves = errors.flatMap leaves := by
  rw [← flatMap_leaves_parts, parts_of_combine h, List.flatMap_assoc]
  exact List.flatMap_congr fun e' _ => flatMap_leaves_parts e'

/-! ## Kinds -/

theorem greatestKind_append (errors more : List Error) :
    greatestKind (errors ++ more) = (greatestKind errors).max (greatestKind more) := by
  have hassoc : ∀ a b c : ErrorKind, a.max (b.max c) = (a.max b).max c := by
    intro a b c
    cases a <;> cases b <;> cases c <;> rfl
  induction errors with
  | nil =>
      rw [List.nil_append, greatestKind]
      cases greatestKind more <;> rfl
  | cons e rest ih => rw [List.cons_append, greatestKind, ih, hassoc, greatestKind]

theorem greatestKind_singleton (e : Error) : greatestKind [e] = e.kind := by
  rw [greatestKind, greatestKind]
  cases e.kind <;> rfl

mutual

/-- The kind of an error is the greatest kind of its leaves. -/
theorem kind_eq_greatestKind_leaves (e : Error) : e.kind = greatestKind e.leaves := by
  cases e with
  | multiple errors => rw [kind, leaves, greatestKind_leavesOfAll errors]
  | _ => exact (greatestKind_singleton _).symm

theorem greatestKind_leavesOfAll (errors : List Error) :
    greatestKind errors = greatestKind (leavesOfAll errors) := by
  cases errors with
  | nil => rfl
  | cons e rest =>
      rw [greatestKind, leavesOfAll, greatestKind_append, ← kind_eq_greatestKind_leaves e,
        ← greatestKind_leavesOfAll rest]

end

/-- Whether a kind is the greatest one of some errors. -/
def IsGreatestKind (k : ErrorKind) (errors : List Error) : Prop :=
  (∃ e ∈ errors, e.kind = k) ∧ ∀ e ∈ errors, e.kind.rank ≤ k.rank

theorem isGreatestKind_greatestKind {errors : List Error} (h : errors ≠ []) :
    IsGreatestKind (greatestKind errors) errors := by
  induction errors with
  | nil => exact absurd rfl h
  | cons e rest ih =>
      cases rest with
      | nil =>
          rw [greatestKind_singleton]
          exact ⟨⟨e, List.mem_cons_self .., rfl⟩, by simp⟩
      | cons e' more =>
          obtain ⟨⟨top, htop, hkind⟩, hbound⟩ := ih (List.cons_ne_nil _ _)
          rw [greatestKind, ErrorKind.max]
          split
          next hle =>
            exact ⟨⟨top, List.mem_cons_of_mem _ htop, hkind⟩,
              List.forall_mem_cons.mpr ⟨hle, hbound⟩⟩
          next hlt =>
            refine ⟨⟨e, List.mem_cons_self .., rfl⟩, List.forall_mem_cons.mpr ⟨Nat.le_refl _, ?_⟩⟩
            exact fun other hother => (hbound other hother).trans (by omega)

/-- Any kind but the least is greater than it. -/
theorem ne_invalid_iff_rank_pos {k : ErrorKind} : k ≠ .invalid ↔ 0 < k.rank := by
  cases k <;> simp [ErrorKind.rank]

/-- The greatest kind of some errors is not the least one exactly when one of theirs is not. -/
theorem IsGreatestKind.ne_invalid_iff {k : ErrorKind} {errors : List Error}
    (h : IsGreatestKind k errors) : k ≠ .invalid ↔ ∃ e ∈ errors, e.kind ≠ .invalid := by
  obtain ⟨⟨top, htop, hkind⟩, hbound⟩ := h
  constructor
  · exact fun hk => ⟨top, htop, hkind ▸ hk⟩
  · rintro ⟨e, he, hinvalid⟩
    rw [ne_invalid_iff_rank_pos] at hinvalid ⊢
    exact hinvalid.trans_le (hbound e he)

/-- Errors of any kind but `invalid` are tried again. -/
theorem action_eq_requeue_iff {e : Error} :
    e.action = .requeue retryDelay ↔ e.kind ≠ .invalid := by
  rw [action]
  cases e.kind <;> simp

/-! ## Texts -/

theorem messages_eq (errors : List Error) : messages errors = errors.map message := by
  induction errors with
  | nil => rfl
  | cons e rest ih => rw [messages, ih, List.map_cons]

theorem message_multiple (errors : List Error) :
    (multiple errors).message = "; ".intercalate (errors.map message) := by
  rw [message, messages_eq]

/-- Whether an error is put together from single ones, and from at least one. -/
structure IsTidy (e : Error) : Prop where
  flat : e.IsFlat
  nonempty : e.parts ≠ []

/-- The text of an error is the texts of its parts. -/
theorem message_eq_parts (e : Error) : e.message = "; ".intercalate (e.parts.map message) := by
  cases e with
  | multiple errors => exact message_multiple errors
  | _ => exact String.intercalate_singleton.symm

/-- The texts of errors that are not empty are the texts of their parts. -/
theorem intercalate_parts {errors : List Error} (h : ∀ e ∈ errors, e.parts ≠ []) :
    "; ".intercalate ((errors.flatMap parts).map message) =
      "; ".intercalate (errors.map message) := by
  induction errors with
  | nil => rfl
  | cons e rest ih =>
      obtain ⟨he, hrest⟩ := List.forall_mem_cons.mp h
      cases rest with
      | nil => simp [message_eq_parts e]
      | cons e' more =>
          have hparts : (e.parts).map message ≠ [] := by simpa using he
          have hmore : ((e' :: more).flatMap parts).map message ≠ [] := by
            simp [hrest e' (List.mem_cons_self ..)]
          have hmessages : (e' :: more).map message ≠ [] := by simp
          rw [List.flatMap_cons, List.map_append,
            String.intercalate_append_of_ne_nil hparts hmore, ih hrest, ← message_eq_parts,
            List.map_cons (l := e' :: more), String.intercalate_cons_of_ne_nil hmessages]

/-- The text of a combined error is the texts of what is combined, unless there is something empty
among it. -/
theorem message_of_combine {errors : List Error} {e : Error} (h : ∀ e ∈ errors, e.parts ≠ [])
    (hcombine : combine errors = some e) :
    e.message = "; ".intercalate (errors.map message) := by
  rw [message_eq_parts, parts_of_combine hcombine, intercalate_parts h]

/-! ## Groups -/

/-- Of two errors or more the parts are put together. -/
theorem combine_of_two_le {errors : List Error} (h : 2 ≤ errors.length) :
    combine errors = some (multiple (errors.flatMap parts)) := by
  match errors, h with
  | _ :: _ :: _, _ => rfl

/-- Some errors in a row may be combined before they are combined with those around them. -/
theorem combine_within (before errors after : List Error) :
    combine (before ++ (combine errors).toList ++ after) = combine (before ++ errors ++ after) := by
  match errors with
  | [] => rfl
  | [e] => rfl
  | first :: second :: rest =>
      have hgroup : 2 ≤ (first :: second :: rest).length := by simp
      rw [combine_of_two_le hgroup, Option.toList_some]
      by_cases halone : before ++ after = []
      · obtain ⟨rfl, rfl⟩ := List.append_eq_nil_iff.mp halone
        rw [List.nil_append, List.append_nil, List.nil_append, List.append_nil]
        rfl
      · have hmore : 0 < before.length + after.length := by
          rw [← List.length_append]
          exact List.length_pos_iff.mpr halone
        rw [combine_of_two_le, combine_of_two_le]
        · simp only [List.flatMap_append, List.flatMap_singleton, parts]
        all_goals
          simp only [List.length_append, List.length_cons, List.length_nil]
          omega

/-- Errors may be combined in groups before the groups are combined. -/
theorem combine_groups (groups : List (List Error)) :
    combine (groups.filterMap combine) = combine groups.flatten := by
  suffices h : ∀ before, combine (before ++ groups.filterMap combine) =
      combine (before ++ groups.flatten) from h []
  induction groups with
  | nil => exact fun _ => rfl
  | cons group rest ih =>
      intro before
      have hfirst : (group :: rest).filterMap combine =
          (combine group).toList ++ rest.filterMap combine := by
        rw [List.filterMap_cons]
        cases combine group <;> rfl
      rw [hfirst, ← List.append_assoc, combine_within, ih, List.flatten_cons, List.append_assoc]

/-- What one error says for some errors. -/
structure StandsFor (e : Error) (errors : List Error) : Prop where
  /-- It is put together from single errors. -/
  flat : e.IsFlat
  /-- Its leaves are theirs, in order. -/
  leaves : e.leaves = errors.flatMap Error.leaves
  /-- Its text is their texts. -/
  message : e.message = "; ".intercalate (errors.map Error.message)
  /-- Its kind is the greatest one of its leaves. -/
  kind : IsGreatestKind e.kind e.leaves
  /-- It is tried again when one of its leaves is of another kind than `invalid`. -/
  retried : e.action = .requeue retryDelay ↔ ∃ leaf ∈ e.leaves, leaf.kind ≠ .invalid

/-- A combined error stands for errors that are put together from single ones. -/
theorem standsFor_of_combine {errors : List Error} {e : Error} (h : ∀ e ∈ errors, e.IsTidy)
    (hcombine : combine errors = some e) : e.StandsFor errors := by
  have hparts := parts_of_combine hcombine
  have hflat : e.IsFlat := by
    intro part hpart
    rw [hparts] at hpart
    obtain ⟨e', he', hmem⟩ := List.mem_flatMap.mp hpart
    exact (h e' he').flat part hmem
  have hleaves : e.leaves ≠ [] := by
    rw [hflat.leaves, hparts]
    intro hnil
    have hall := List.flatMap_eq_nil_iff.mp hnil
    cases errors with
    | nil => cases hcombine
    | cons first rest =>
        have hfirst : first ∈ first :: rest := List.mem_cons_self ..
        exact (h first hfirst).nonempty (hall first hfirst)
  have hkind : IsGreatestKind e.kind e.leaves := by
    rw [kind_eq_greatestKind_leaves]
    exact isGreatestKind_greatestKind hleaves
  exact
    { flat := hflat
      leaves := leaves_of_combine hcombine
      message := message_of_combine (fun e' he' => (h e' he').nonempty) hcombine
      kind := hkind
      retried := action_eq_requeue_iff.trans hkind.ne_invalid_iff }

/-- To combine errors that are put together from single ones does not depend on how they are
grouped.  There is nothing to combine only when there is no error.  Some errors may be combined
first, and so may any groups of them.  And what comes of all of them stands for all of them. -/
theorem combine_is_grouping_independent (xs ys : List Error) (hxs : ∀ e ∈ xs, e.IsTidy)
    (hys : ∀ e ∈ ys, e.IsTidy) :
    (combine (xs ++ ys) = none ↔ xs = [] ∧ ys = []) ∧
      combine ((combine xs).toList ++ ys) = combine (xs ++ ys) ∧
      (∀ groups : List (List Error), groups.flatten = xs ++ ys →
        combine (groups.filterMap combine) = combine (xs ++ ys)) ∧
      ∀ e, combine (xs ++ ys) = some e → e.StandsFor (xs ++ ys) := by
  refine ⟨?_, combine_within [] xs ys, ?_, ?_⟩
  · rw [combine_eq_none_iff, List.append_eq_nil_iff]
  · intro groups hgroups
    rw [combine_groups, hgroups]
  · intro e hcombine
    exact standsFor_of_combine (List.forall_mem_append.mpr ⟨hxs, hys⟩) hcombine

/-- A name that is missing, and a password that cannot be found. -/
def lookupErrors : Error :=
  .multiple [.invalid "name is required",
    .reference "password" (.notFound .secret "shop" "orders")]

/-- A server that fails. -/
def serverError : Error := .sql (.database "08006" "connection lost")

/-- Two errors that have been combined before and one that has not stand for three, of a kind each.
They are tried again, though one of them would not be. -/
theorem combined_before :
    (∀ e ∈ [lookupErrors], e.IsTidy) ∧ (∀ e ∈ [serverError], e.IsTidy) ∧
      ∃ e, combine ((combine [lookupErrors]).toList ++ [serverError]) = some e ∧
        e.StandsFor [lookupErrors, serverError] ∧
        e.leaves.map kind = [.invalid, .transient, .operational] ∧
        e.action = .requeue retryDelay := by
  have hlookups : ∀ e ∈ [lookupErrors], e.IsTidy := by
    refine List.forall_mem_singleton.mpr ⟨List.forall_mem_cons.mpr ⟨?_, ?_⟩, List.cons_ne_nil _ _⟩
    · exact fun errors h => by cases h
    · exact List.forall_mem_singleton.mpr fun errors h => by cases h
  have hserver : ∀ e ∈ [serverError], e.IsTidy :=
    List.forall_mem_singleton.mpr ⟨(isSingle_sql _).isFlat, List.cons_ne_nil _ _⟩
  obtain ⟨-, hgrouped, -, hstands⟩ :=
    combine_is_grouping_independent [lookupErrors] [serverError] hlookups hserver
  have hthree := hstands _ rfl
  have hleaf : serverError ∈ (multiple ([lookupErrors, serverError].flatMap parts)).leaves :=
    List.mem_cons_of_mem _ (List.mem_cons_of_mem _ (List.mem_cons_self ..))
  exact ⟨hlookups, hserver, _, hgrouped, hthree, rfl,
    hthree.retried.mpr ⟨serverError, hleaf, by decide⟩⟩

end PgSteward.Error
