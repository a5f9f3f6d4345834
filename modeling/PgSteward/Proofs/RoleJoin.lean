import PgSteward.Proofs.NeededRoles

/-!
# Needed roles as a join

The roles that are needed are the join of the static roles and of what each access needs.  Apart
from the static roles there is one role for each database with an access, which carries the schemas
and the greatest privileges of the accesses to the database (`RequiredRoles.IsJoin`).

So neither the order of the accesses matters nor how often one of them is listed, and more accesses
or static roles never come to less (`RequiredRoles.Within`).  `RequiredRoles.of_join` has it all.
-/

namespace PgSteward

/-! ## Privileges in order -/

/-- The place of privileges in their order. -/
def TablePrivileges.rank : TablePrivileges → Nat
  | .read => 0
  | .write => 1
  | .extendedWrite => 2

instance : LE TablePrivileges := ⟨fun p q => p.rank ≤ q.rank⟩

theorem TablePrivileges.read_le (p : TablePrivileges) : TablePrivileges.read ≤ p := Nat.zero_le _

theorem TablePrivileges.le_extendedWrite (p : TablePrivileges) : p ≤ .extendedWrite := by
  show p.rank ≤ 2
  cases p <;> decide

namespace DatabaseNeed

variable {n n' : DatabaseNeed}

theorem privileges_of_read (h : n.privilege = .read) : n.privileges = .read := by
  rw [privileges, h]

theorem privileges_of_write (h : n.privilege = .write) (hextended : n.extended = false) :
    n.privileges = .write := by
  rw [privileges, h, hextended]

theorem privileges_of_extended (h : n.privilege = .write) (hextended : n.extended = true) :
    n.privileges = .extendedWrite := by
  rw [privileges, h, hextended]

/-- A need that asks for no less comes to no less. -/
theorem privileges_le (hprivilege : n.privilege = .write → n'.privilege = .write)
    (hextended : n.extended = true → n'.extended = true) : n.privileges ≤ n'.privileges := by
  cases h : n.privilege with
  | read =>
      rw [privileges_of_read h]
      exact TablePrivileges.read_le _
  | write =>
      have h' := hprivilege h
      cases he' : n'.extended with
      | true =>
          rw [privileges_of_extended h' he']
          exact TablePrivileges.le_extendedWrite _
      | false =>
          have he : n.extended = false := by
            cases he : n.extended with
            | false => rfl
            | true => exact absurd (hextended he) (by rw [he']; decide)
          rw [privileges_of_write h he, privileges_of_write h' he']
          exact Nat.le_refl _

/-- Needs are equal that ask for the same. -/
theorem eq_of_iff (hprivilege : n.privilege = .write ↔ n'.privilege = .write)
    (hextended : n.extended = true ↔ n'.extended = true)
    (hschemas : ∀ schema, schema ∈ n.schemas ↔ schema ∈ n'.schemas) : n = n' := by
  have hsame : n.privilege = n'.privilege := by
    cases h : n.privilege with
    | read =>
        cases h' : n'.privilege with
        | read => rfl
        | write => exact absurd (hprivilege.mpr h') (by rw [h]; decide)
    | write => exact (hprivilege.mp h).symm
  have hset : n.schemas = n'.schemas := Std.ExtTreeSet.ext_mem fun schema => hschemas schema
  cases n
  cases n'
  cases hsame
  cases hset
  cases Bool.eq_iff_iff.mpr hextended
  rfl

end DatabaseNeed

namespace RequiredRoles

variable {static static' : List String} {accesses accesses' : List PlannedAccess}

/-- The need of a database depends on nothing but which accesses there are. -/
theorem needsOf_congr (h : ∀ a, a ∈ accesses' ↔ a ∈ accesses) :
    needsOf accesses' = needsOf accesses := by
  have hexists : ∀ P : PlannedAccess → Prop, (∃ a ∈ accesses', P a) ↔ ∃ a ∈ accesses, P a :=
    fun P => exists_congr fun a => and_congr_left fun _ => h a
  apply Std.ExtTreeMap.ext_getElem?
  intro database
  have hmem : database ∈ needsOf accesses' ↔ database ∈ needsOf accesses := by
    rw [mem_needsOf, mem_needsOf, hexists]
  rw [Std.ExtTreeMap.mem_iff_isSome_getElem?, Std.ExtTreeMap.mem_iff_isSome_getElem?] at hmem
  cases hn : (needsOf accesses)[database]? with
  | none =>
      rw [hn] at hmem
      exact Option.not_isSome_iff_eq_none.mp fun hsome => by cases hmem.mp hsome
  | some n =>
      rw [hn] at hmem
      obtain ⟨n', hn'⟩ := Option.isSome_iff_exists.mp (hmem.mpr rfl)
      rw [hn']
      congr 1
      refine DatabaseNeed.eq_of_iff ?_ ?_ fun schema => ?_
      · rw [privilege_needsOf hn', privilege_needsOf hn, hexists]
      · rw [extended_needsOf hn', extended_needsOf hn, hexists]
      · rw [mem_schemas_needsOf hn', mem_schemas_needsOf hn, hexists]

/-! ## What managed roles carry -/

/-- Whether a role that is needed is managed and carries a grant. -/
def Carries (required : RequiredRoles) (role : String) (g : ManagedGrant) : Prop :=
  required[role]? = some (some g)

/-- Whether a managed role carries what the accesses to its database come to. -/
structure CarriesJoin (accesses : List PlannedAccess) (g : ManagedGrant) : Prop where
  schemas : ∀ schema, schema ∈ g.schemas ↔
    ∃ a ∈ accesses, a.database = g.database ∧ a.schema = schema
  /-- It reads if all of them do. -/
  read : (∀ a ∈ accesses, a.database = g.database → a.privilege = .read) → g.privileges = .read
  /-- It has the extended privileges if one of them writes with them. -/
  extended : (∃ a ∈ accesses, a.database = g.database ∧ a.privilege = .write ∧
    a.extended = true) → g.privileges = .extendedWrite
  /-- It writes otherwise. -/
  write : (∃ a ∈ accesses, a.database = g.database ∧ a.privilege = .write) →
    (∀ a ∈ accesses, a.database = g.database → a.privilege = .write → a.extended = false) →
      g.privileges = .write

theorem carriesJoin_of_needsOf {database : String} {n : DatabaseNeed}
    (hn : (needsOf accesses)[database]? = some n) :
    CarriesJoin accesses { database, schemas := n.schemas, privileges := n.privileges } where
  schemas := fun schema => mem_schemas_needsOf hn
  read := fun hall => by
    refine DatabaseNeed.privileges_of_read ?_
    cases h : n.privilege with
    | read => rfl
    | write =>
        obtain ⟨a, ha, hdatabase, hwrite⟩ := (privilege_needsOf hn).mp h
        exact absurd (hall a ha hdatabase) (by rw [hwrite]; decide)
  extended := fun hsome => by
    obtain ⟨a, ha, hdatabase, hwrite, -⟩ := id hsome
    exact DatabaseNeed.privileges_of_extended
      ((privilege_needsOf hn).mpr ⟨a, ha, hdatabase, hwrite⟩) ((extended_needsOf hn).mpr hsome)
  write := fun hsome hplain => by
    refine DatabaseNeed.privileges_of_write ((privilege_needsOf hn).mpr hsome) ?_
    cases h : n.extended with
    | false => rfl
    | true =>
        obtain ⟨a, ha, hdatabase, hwrite, hextended⟩ := (extended_needsOf hn).mp h
        exact absurd (hplain a ha hdatabase hwrite) (by rw [hextended]; decide)

/-! ## Joins -/

/-- Whether roles are the join of static roles and of what accesses need. -/
structure IsJoin (static : List String) (accesses : List PlannedAccess)
    (required : RequiredRoles) : Prop where
  /-- They are the static roles and the managed ones. -/
  mem_iff : ∀ role, role ∈ required ↔ role ∈ static ∨ ∃ g, required.Carries role g
  /-- A managed role is named after its database. -/
  named : ∀ role g, required.Carries role g →
    role = readRole g.database ∨ role = readWriteRole g.database
  /-- There is an access to its database. -/
  accessed : ∀ role g, required.Carries role g → ∃ a ∈ accesses, a.database = g.database
  /-- The database of an access has a managed role. -/
  exists_role : ∀ a ∈ accesses, ∃ role g, required.Carries role g ∧ g.database = a.database
  /-- A database has no two of them, and two databases have none in common. -/
  apart : ∀ role role' g g', required.Carries role g → required.Carries role' g' →
    (role = role' ↔ g.database = g'.database)
  carries : ∀ role g, required.Carries role g → CarriesJoin accesses g

theorem isJoin_of (static : List String) (accesses : List PlannedAccess) :
    IsJoin static accesses (of static accesses) where
  mem_iff := fun role => by
    rw [mem_of_iff]
    refine or_congr_right ⟨?_, ?_⟩
    · rintro ⟨database, n, hn, hrole⟩
      exact ⟨_, getElem?_of_eq_some_iff.mpr ⟨database, n, hn, hrole, rfl⟩⟩
    · rintro ⟨g, hg⟩
      obtain ⟨database, n, hn, hrole, -⟩ := getElem?_of_eq_some_iff.mp hg
      exact ⟨database, n, hn, hrole⟩
  named := fun role g hg => by
    obtain ⟨database, n, -, rfl, rfl⟩ := getElem?_of_eq_some_iff.mp hg
    unfold DatabaseNeed.role
    cases n.privilege with
    | read => exact .inl rfl
    | write => exact .inr rfl
  accessed := fun role g hg => by
    obtain ⟨database, n, hn, -, rfl⟩ := getElem?_of_eq_some_iff.mp hg
    refine mem_needsOf.mp ?_
    rw [Std.ExtTreeMap.mem_iff_isSome_getElem?, hn]
    rfl
  exists_role := fun a ha => by
    obtain ⟨n, hn, -⟩ := exists_need ha
    exact ⟨_, _, getElem?_of_eq_some_iff.mpr ⟨a.database, n, hn, rfl, rfl⟩, rfl⟩
  apart := fun role role' g g' hg hg' => by
    obtain ⟨database, n, hn, rfl, rfl⟩ := getElem?_of_eq_some_iff.mp hg
    obtain ⟨database', n', hn', rfl, rfl⟩ := getElem?_of_eq_some_iff.mp hg'
    refine ⟨role_inj, ?_⟩
    rintro (rfl : database = database')
    cases hn.symm.trans hn'
    rfl
  carries := fun role g hg => by
    obtain ⟨database, n, hn, -, rfl⟩ := getElem?_of_eq_some_iff.mp hg
    exact carriesJoin_of_needsOf hn

/-! ## More accesses and static roles -/

/-- Whether roles come to no less than static roles and the managed ones of other roles. -/
structure Within (static : List String) (required required' : RequiredRoles) : Prop where
  static : ∀ role ∈ static, role ∈ required'
  /-- A database keeps a managed role, with no less privileges and with all its schemas. -/
  managed : ∀ role g, required.Carries role g → ∃ role' g',
    required'.Carries role' g' ∧ g'.database = g.database ∧
      g.privileges ≤ g'.privileges ∧ ∀ schema ∈ g.schemas, schema ∈ g'.schemas

theorem within_of (hstatic : static ⊆ static') (haccesses : accesses ⊆ accesses') :
    Within static (of static accesses) (of static' accesses') where
  static := fun role hrole => mem_of_iff.mpr (.inl (hstatic hrole))
  managed := fun role g hg => by
    have hexists : ∀ P : PlannedAccess → Prop, (∃ a ∈ accesses, P a) → ∃ a ∈ accesses', P a :=
      fun P ⟨a, ha, h⟩ => ⟨a, haccesses ha, h⟩
    obtain ⟨database, n, hn, -, rfl⟩ := getElem?_of_eq_some_iff.mp hg
    obtain ⟨a, ha, rfl⟩ := (isJoin_of static accesses).accessed role _ hg
    obtain ⟨n', hn', -⟩ := exists_need (haccesses ha)
    refine ⟨_, _, getElem?_of_eq_some_iff.mpr ⟨a.database, n', hn', rfl, rfl⟩, rfl, ?_, ?_⟩
    · refine DatabaseNeed.privileges_le ?_ ?_
      · rw [privilege_needsOf hn', privilege_needsOf hn]
        exact hexists _
      · rw [extended_needsOf hn', extended_needsOf hn]
        exact hexists _
    · intro schema
      rw [mem_schemas_needsOf hn', mem_schemas_needsOf hn]
      exact hexists _

/-- The roles that are needed are a join: they are put together from the static roles and the
accesses in any order, and grow with both. -/
theorem of_join (static : List String) (accesses : List PlannedAccess) :
    IsJoin static accesses (of static accesses) ∧
      (∀ accesses', (∀ a, a ∈ accesses' ↔ a ∈ accesses) →
        of static accesses' = of static accesses) ∧
      ∀ static' accesses', static ⊆ static' → accesses ⊆ accesses' →
        Within static (of static accesses) (of static' accesses') := by
  refine ⟨isJoin_of static accesses, fun accesses' h => ?_, fun static' accesses' => within_of⟩
  rw [of_eq_foldl, of_eq_foldl, needsOf_congr h]

end RequiredRoles

end PgSteward
