import PgSteward.Proofs.ErrorReports
import PgSteward.Proofs.PolicyOrder

/-!
# Names that reach the policy service

The statement of a user holds the name of the user twice: in the resource that stands for its role,
and in the pattern for its identity.  The policy service reads `*` and `?` in both as any text.  A
name whose role is an identifier has neither (`not_wild_of_isName`).

Statements of SQL check their names, but the statement of a user is written whatever its name is.
So `Services.safe_names_iff` says when no other than an identifier is written: when the role is one,
or when nothing is written at all.
-/

namespace PgSteward

open Program
open Sharder (listed standing)

/-! ## Identifiers -/

/-- No name character stands for any text. -/
theorem not_wild_of_isNameChar {c : Char} (h : isNameChar c = true) : c ≠ '*' ∧ c ≠ '?' := by
  constructor
  · rintro rfl
    cases h
  · rintro rfl
    cases h

/-- The name of a user whose role is an identifier has no characters that stand for any text, and
neither has the role. -/
theorem not_wild_of_isName {start name : String} (h : isName (start ++ sanitize name) = true) :
    ∀ c ∈ (start ++ sanitize name).toList ++ name.toList, c ≠ '*' ∧ c ≠ '?' := by
  have hrole : ∀ c ∈ (start ++ sanitize name).toList, isNameChar c = true := fun c hc =>
    Identifier.isNameChar_of_mem (i := ⟨_, h⟩) hc
  intro c hc
  rcases List.mem_append.mp hc with hc | hc
  · exact not_wild_of_isNameChar (hrole c hc)
  · by_cases hdot : c = '.'
    · rw [hdot]
      decide
    · refine not_wild_of_isNameChar (hrole c ?_)
      rw [String.toList_append, List.mem_append, sanitize, String.toList_ofList]
      exact .inr (List.mem_map.mpr ⟨c, hc, if_neg hdot⟩)

/-! ## Statements that are written -/

namespace Sharder

variable {s : ShardSettings} {m n : PolicyMemory} {arn user role : String} {q r : StoredPolicy}

/-- Whether a statement for a user has been added or rewritten: another stands for it than
before. -/
def Writes (s : ShardSettings) (user : String) (m n : PolicyMemory) : Prop :=
  ∃ st, standing (userIdOf user) (listed s n) = some st ∧
    standing (userIdOf user) (listed s m) ≠ some st

/-- Stores with the same policies list the same. -/
theorem listed_congr (h : n.policies = m.policies) : listed s n = listed s m := by
  rw [listed, h, listed]

/-- After a policy with a statement for a user has been seated, its statement is the only one for the
user. -/
theorem mem_seated_iff (hm : m.WellFormed) (hseat : Seat s user role m arn q)
    (hr : r.document = q.document)
    (hn : n.policies = seated (userIdOf user) (s.statement user role).resource m.policies arn r)
    {st : PolicyStatement} (hst : st.isFor (userIdOf user) = true) :
    st ∈ statementsIn (listed s n) ↔ st = seatedStatement s user role m := by
  have honly := hseat.holdsOnly hm hr hn
  obtain ⟨front, back, hstatements, hfront, hback⟩ := hseat.statements hm
  rw [← hr] at hstatements
  constructor
  · intro hmem
    obtain ⟨policy, hpolicy, hin⟩ := List.mem_flatMap.mp hmem
    obtain ⟨p, hp, hshown⟩ := mem_listed hpolicy
    have hin : st ∈ p.document.statements := by
      rw [hshown] at hin
      exact hin
    by_cases harn : policy.arn = arn
    · rw [harn] at hp
      obtain rfl : r = p := Option.some.inj (honly.kept.symm.trans hp)
      rw [hstatements, List.mem_append, List.mem_cons] at hin
      rcases hin with hin | rfl | hin
      · cases (hfront st hin).symm.trans hst
      · rfl
      · cases (hback st hin).symm.trans hst
    · cases (honly.elsewhere _ p hp harn st hin).symm.trans hst
  · rintro rfl
    refine List.mem_flatMap.mpr ⟨_, listed_of_some honly.kept, ?_⟩
    show _ ∈ r.document.statements
    rw [hstatements]
    exact List.mem_append_right _ List.mem_cons_self

/-- So it is the one that stands. -/
theorem standing_of_seated (hm : m.WellFormed) (hseat : Seat s user role m arn q)
    (hr : r.document = q.document)
    (hn : n.policies = seated (userIdOf user) (s.statement user role).resource m.policies arn r) :
    standing (userIdOf user) (listed s n) = some (seatedStatement s user role m) := by
  have hfor := seatedStatement_isFor s user role m
  have hmem := (mem_seated_iff hm hseat hr hn hfor).mpr rfl
  cases hstanding : standing (userIdOf user) (listed s n) with
  | none => exact absurd hfor (List.find?_eq_none.mp hstanding _ hmem)
  | some st =>
      rw [(mem_seated_iff hm hseat hr hn (isFor_of_standing hstanding)).mp
        (List.mem_of_find?_eq_some hstanding)]

/-- After a user with a place for its statement has been ensured, the statement is seated there,
whether the policy could be attached or not. -/
theorem seated_ensure (hm : m.WellFormed) (hseat : Seat s user role m arn q) :
    ∃ r, r.document = q.document ∧
      (((inMemory s).ensure user role).outcome m).2.policies =
        seated (userIdOf user) (s.statement user role).resource m.policies arn r := by
  rcases ensure_cases hm hseat with ⟨n, hrun, hn, -⟩ | ⟨-, n, hrun, hn, -⟩
  · rw [outcome_of_ok hrun]
    exact ⟨_, q.attachedTo_document _, hn⟩
  · rw [outcome_of_error hrun]
    exact ⟨_, rfl, hn⟩

theorem standing_ensure (hm : m.WellFormed) (hseat : Seat s user role m arn q) :
    standing (userIdOf user) (listed s (((inMemory s).ensure user role).outcome m).2) =
      some (seatedStatement s user role m) := by
  obtain ⟨r, hr, hn⟩ := seated_ensure hm hseat
  exact standing_of_seated hm hseat hr hn

/-- Whether there is nothing to write for a user: the statement that stands has the resource already,
or there is none and no place for one. -/
def IsSettled (s : ShardSettings) (user role : String) (m : PolicyMemory) : Prop :=
  (∃ st, standing (userIdOf user) (listed s m) = some st ∧ st.resource = [s.resource role]) ∨
    (standing (userIdOf user) (listed s m) = none ∧ ¬Mirrors.HasPlace s m)

/-- There is a policy for the statement of a user that is to be written. -/
theorem exists_seat_of_not_settled (h : ¬IsSettled s user role m) :
    ∃ arn q, Seat s user role m arn q := by
  refine exists_seat user role fun hfirst => ?_
  by_contra hplace
  exact h (.inr ⟨standing_eq_none_iff.mpr hfirst, hplace⟩)

/-- Where there is nothing to write, the statement that stands stays. -/
theorem standing_of_settled (hm : m.WellFormed) (h : IsSettled s user role m) :
    standing (userIdOf user) (listed s (((inMemory s).ensure user role).outcome m).2) =
      standing (userIdOf user) (listed s m) := by
  rcases h with ⟨st, hst, hresource⟩ | ⟨hnone, hplace⟩
  · obtain ⟨arn, q, hseat⟩ := exists_seat (s := s) (m := m) user role fun hfirst => by
      cases hst.symm.trans (standing_eq_none_iff.mpr hfirst)
    rw [standing_ensure hm hseat, seatedStatement, hst]
    dsimp only
    rw [show (s.statement user role).resource = st.resource from hresource.symm]
  · obtain ⟨e, n, herror, hn⟩ := ensure_of_no_place role (standing_eq_none_iff.mp hnone) hplace
    rw [outcome_of_error herror, listed_congr hn]

/-- To ensure a user writes a statement for it unless there is nothing to write. -/
theorem writes_ensure_iff (hm : m.WellFormed) :
    Writes s user m (((inMemory s).ensure user role).outcome m).2 ↔ ¬IsSettled s user role m := by
  constructor
  · rintro ⟨st, hafter, hbefore⟩ hsettled
    rw [standing_of_settled hm hsettled] at hafter
    exact hbefore hafter
  · intro hsettled
    obtain ⟨arn, q, hseat⟩ := exists_seat_of_not_settled hsettled
    refine ⟨_, standing_ensure hm hseat, fun hbefore => hsettled (.inl ⟨_, hbefore, ?_⟩)⟩
    exact seatedStatement_resource s user role m

end Sharder

/-! ## Updates of users -/

/-- What the policies of a store are after an update of a user, as far as its name goes. -/
structure Services.NameReport (settings : Settings) (spec : UserSpec) (m n : PolicyMemory) :
    Prop where
  /-- Where one is written, the only statement for the user is for the resource of its role. -/
  resource : Sharder.Writes settings.shard spec.name m n →
    ∀ st ∈ statementsIn (listed settings.shard n),
      st.isFor (userIdOf spec.name) = true →
        st.resource = [settings.shard.resource (sanitize spec.name)]
  /-- If the role is an identifier, no character of it or of the name stands for any text. -/
  tame : isName (settings.shard.rolePrefix ++ sanitize spec.name) = true →
    ∀ c ∈ (settings.shard.rolePrefix ++ sanitize spec.name).toList ++ spec.name.toList,
      c ≠ '*' ∧ c ≠ '?'
  /-- No statement is written for a role that is no identifier, exactly if the role is one, or the
  user has no name or nothing is to be written for it. -/
  safe_iff : (Sharder.Writes settings.shard spec.name m n →
      isName (settings.shard.rolePrefix ++ sanitize spec.name) = true) ↔
    isName (settings.shard.rolePrefix ++ sanitize spec.name) = true ∨
      spec.name.isEmpty = true ∨ Sharder.IsSettled settings.shard spec.name (sanitize spec.name) m

namespace Services

variable {σ : Type} (settings : Settings) (around : Surroundings σ) (now : Instant)
  (space : String) (spec : UserSpec) (s : σ) (m : PolicyMemory)

/-- An update of a user leaves the policies as its statement does, or as they are if the user has no
name. -/
theorem policies_syncUser :
    (((settings.services (around.withStore PolicyMemory.store) now).syncUser space spec).outcome
        (s, m)).2.2 =
      if spec.name.isEmpty then m
      else (((Sharder.inMemory settings.shard).ensure spec.name
        (sanitize spec.name)).outcome m).2 := by
  cases hname : spec.name.isEmpty with
  | true =>
      unfold syncUser
      rw [hname]
      rfl
  | false =>
      rw [outcome_syncUser settings around PolicyMemory.store now space spec s m hname]
      rfl

/-- Whatever the surroundings come to, the name of a user gets into a statement unchecked: one is
written unless there is nothing to write. -/
theorem safe_names_iff (hm : m.WellFormed) :
    NameReport settings spec m
      (((settings.services (around.withStore PolicyMemory.store) now).syncUser space spec).outcome
        (s, m)).2.2 := by
  rw [policies_syncUser]
  cases hname : spec.name.isEmpty with
  | true =>
      have hnone : ¬Sharder.Writes settings.shard spec.name m m := by
        rintro ⟨st, hafter, hbefore⟩
        exact hbefore hafter
      refine ⟨fun h => absurd h hnone, not_wild_of_isName, ?_⟩
      exact iff_of_true (fun h => absurd h hnone) (.inr (.inl hname))
  | false =>
      have hwrites :
          Sharder.Writes settings.shard spec.name m _ ↔
            ¬Sharder.IsSettled settings.shard spec.name (sanitize spec.name) m :=
        Sharder.writes_ensure_iff hm
      refine ⟨fun h st hst hfor => ?_, not_wild_of_isName, ?_⟩
      · obtain ⟨arn, q, hseat⟩ := Sharder.exists_seat_of_not_settled (hwrites.mp h)
        obtain ⟨r, hr, hn⟩ := Sharder.seated_ensure hm hseat
        rw [(Sharder.mem_seated_iff hm hseat hr hn hfor).mp hst]
        exact Sharder.seatedStatement_resource ..
      · rw [if_neg (by decide), hwrites, hname]
        constructor
        · intro h
          by_cases hsettled : Sharder.IsSettled settings.shard spec.name (sanitize spec.name) m
          · exact .inr (.inr hsettled)
          · exact .inl (h hsettled)
        · rintro (h | h | h) hsettled
          · exact h
          · cases h
          · exact absurd h hsettled

end Services

/-! ## A name that stands for all -/

/-- A user by the name that stands for any text. -/
def wildUser : UserSpec where
  name := "*"

/-- An update of this user. -/
def wildSync : Program (Cluster × PolicyMemory) Error Unit :=
  (shopSettings.services (shopSurroundings.withStore PolicyMemory.store) writeCall.now).syncUser
    "shop" wildUser

/-- A policy with a statement for this user among others, from when its role was another one. -/
def guestPolicy : StoredPolicy where
  name := "postgres_access_1"
  versions := [("v3", {}), ("v4", { statements := [shopSettings.shard.statement "eve" "eve",
    shopSettings.shard.statement wildUser.name "guest",
    shopSettings.shard.statement "dave" "dave"] })]
  defaultVersion := "v4"
  nextVersion := 5

/-- A store with this policy behind one with statements for others only. -/
def guestStore : PolicyMemory where
  policies := crowdedStore.policies.insert (PolicyMemory.arnOf guestPolicy.name) guestPolicy

theorem listed_guestStore : listed shopSettings.shard guestStore =
    [crowdedPolicy, guestPolicy].map fun p => p.managed (PolicyMemory.arnOf p.name) :=
  shopSettings.shard.mergeSort_inOrder_eq (by decide +kernel) (by decide +kernel)

/-- Nothing else is asked of the name than that there is one: the statement of the user is rewritten
for every role. -/
theorem wildUser_reported :
    guestStore.WellFormed ∧
      Services.NameReport shopSettings wildUser guestStore
        (wildSync.outcome ({}, guestStore)).2.2 ∧
      Sharder.Writes shopSettings.shard wildUser.name guestStore
        (wildSync.outcome ({}, guestStore)).2.2 := by
  have hstore : guestStore.WellFormed := by decide +kernel
  have hreport : Services.NameReport shopSettings wildUser guestStore
      (wildSync.outcome ({}, guestStore)).2.2 :=
    Services.safe_names_iff shopSettings shopSurroundings writeCall.now "shop" wildUser {}
      guestStore hstore
  refine ⟨hstore, hreport, ?_⟩
  by_contra hwrites
  have hstanding : standing (userIdOf wildUser.name) (listed shopSettings.shard guestStore) =
      some (shopSettings.shard.statement wildUser.name "guest") := by
    rw [listed_guestStore]
    decide +kernel
  rcases hreport.safe_iff.mp fun h => absurd h hwrites with
    hrole | hname | ⟨st, hst, hresource⟩ | ⟨hnone, -⟩
  · exact absurd hrole (by decide)
  · exact absurd hname (by decide)
  · cases hstanding.symm.trans hst
    exact absurd hresource (by decide)
  · cases hstanding.symm.trans hnone

/-- This user is let in as every role, under every identity: the update succeeds, though the role is
no identifier, and the statement that it writes allows what matches `*`. -/
theorem wildUser_gets_in :
    (wildSync.outcome ({}, {})).1 = .ok () ∧
      isName (shopSettings.shard.rolePrefix ++ sanitize wildUser.name) = false ∧
      standing (userIdOf wildUser.name) (listed shopSettings.shard {}) = none ∧
      standing (userIdOf wildUser.name) (listed shopSettings.shard (wildSync.outcome ({}, {})).2.2) =
        some (shopSettings.shard.statement "*" "*") ∧
      (shopSettings.shard.statement "*" "*").resource =
        ["arn:aws:rds-db:eu-west-1::dbuser:*/*"] ∧
      (shopSettings.shard.statement "*" "*").userId? = some "*:*@lunar.app" :=
  ⟨outcome_eq_ok_iff.mpr (by decide +kernel), by decide, by decide +kernel, by decide +kernel,
    by decide +kernel, by decide +kernel⟩

end PgSteward
