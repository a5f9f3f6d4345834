import PgSteward.Access.RequiredRoles
import PgSteward.Postgres.Command
import PgSteward.Proofs.NameMaps

/-!
# Roles that are needed

Which roles a login role needs.  Apart from the static roles these are managed roles, one for each
database with an access.  The managed roles of two databases never have the same name.
-/

namespace PgSteward

/-! ## Managed roles -/

/-- A managed role is not read as the word that opens the object of a grant. -/
theorem ne_on_of_isManagedRole {role : String} (h : isManagedRole role = true) : role ≠ "ON" := by
  rintro rfl
  exact absurd h (by decide)

theorem isManagedRole_role (n : DatabaseNeed) (database : String) :
    isManagedRole (n.role database) = true := by
  unfold isManagedRole DatabaseNeed.role
  rw [Bool.or_eq_true, List.isSuffixOf_iff_suffix, List.isSuffixOf_iff_suffix]
  cases n.privilege with
  | read =>
      refine .inl ?_
      show readSuffix.toList <:+ (database ++ readSuffix).toList
      rw [String.toList_append]
      exact List.suffix_append ..
  | write =>
      refine .inr ?_
      show readWriteSuffix.toList <:+ (database ++ readWriteSuffix).toList
      rw [String.toList_append]
      exact List.suffix_append ..

theorem readRole_ne_readWriteRole (a b : String) : readRole a ≠ readWriteRole b := by
  intro h
  have hlast := congrArg (fun s : String => s.toList.getLast?) h
  simp [readRole, readWriteRole, readSuffix, readWriteSuffix] at hlast

/-- A managed role belongs to one database. -/
theorem role_inj {n n' : DatabaseNeed} {a b : String} (h : n.role a = n'.role b) : a = b := by
  unfold DatabaseNeed.role at h
  cases hn : n.privilege <;> cases hn' : n'.privilege <;> rw [hn, hn'] at h
  · exact String.append_left_inj readSuffix |>.mp h
  · exact absurd h (readRole_ne_readWriteRole a b)
  · exact absurd h.symm (readRole_ne_readWriteRole b a)
  · exact String.append_left_inj readWriteSuffix |>.mp h

/-! ## Privileges -/

/-- Whether some privileges include all of others. -/
def TablePrivileges.Includes (p q : TablePrivileges) : Prop :=
  ∀ name ∈ Command.namesOf q.sql.toList, name ∈ Command.namesOf p.sql.toList

instance (p q : TablePrivileges) : Decidable (p.Includes q) := by
  unfold TablePrivileges.Includes
  infer_instance

theorem TablePrivileges.Includes.trans {p q q' : TablePrivileges} (h : p.Includes q)
    (h' : q.Includes q') : p.Includes q' := fun name hname => h name (h' name hname)

theorem TablePrivileges.extendedWrite_includes (p : TablePrivileges) :
    extendedWrite.Includes p := by
  cases p <;> decide

theorem TablePrivileges.write_includes_read : write.Includes read := by decide

/-- The privileges on tables that an access comes to alone. -/
def PlannedAccess.privileges (a : PlannedAccess) : TablePrivileges :=
  (DatabaseNeed.add {} a).privileges

/-- Whether the need of a database comes to at least what an access comes to alone. -/
def DatabaseNeed.Covers (n : DatabaseNeed) (a : PlannedAccess) : Prop :=
  a.schema ∈ n.schemas ∧ n.privileges.Includes a.privileges

namespace DatabaseNeed

variable {n : DatabaseNeed}

theorem privileges_add_includes (n : DatabaseNeed) (a : PlannedAccess) :
    (n.add a).privileges.Includes n.privileges ∧ (n.add a).privileges.Includes a.privileges := by
  have hself : ∀ p : TablePrivileges, p.Includes p := fun p name hname => hname
  unfold PlannedAccess.privileges privileges add
  cases n.privilege <;> cases a.privilege <;> cases n.extended <;> cases a.extended <;>
    simp [Privilege.max, hself, TablePrivileges.extendedWrite_includes,
      TablePrivileges.write_includes_read]

theorem covers_add (n : DatabaseNeed) (a : PlannedAccess) : (n.add a).Covers a :=
  ⟨Std.ExtTreeSet.mem_insert_self, (privileges_add_includes n a).2⟩

theorem Covers.add {a : PlannedAccess} (h : n.Covers a) (b : PlannedAccess) :
    (n.add b).Covers a :=
  ⟨Std.ExtTreeSet.mem_insert.mpr (.inr h.1), (privileges_add_includes n b).1.trans h.2⟩

end DatabaseNeed

/-- The need of a database covers every access to it. -/
theorem exists_need {accesses : List PlannedAccess} {a : PlannedAccess} (ha : a ∈ accesses) :
    ∃ n, (needsOf accesses)[a.database]? = some n ∧ n.Covers a := by
  have hkeep : ∀ (l : List PlannedAccess) (m : NameMap DatabaseNeed),
      (∃ n, m[a.database]? = some n ∧ n.Covers a) →
      ∃ n, (l.foldl (fun m a => m.insert a.database ((m.getD a.database {}).add a))
        m)[a.database]? = some n ∧ n.Covers a := by
    intro l
    induction l with
    | nil => exact fun m h => h
    | cons b rest ih =>
        rintro m ⟨n, hn, hcovers⟩
        refine ih _ ?_
        rw [Std.ExtTreeMap.getElem?_insert]
        by_cases hb : b.database = a.database
        · rw [hb, if_pos Std.ReflCmp.compare_self, Std.ExtTreeMap.getD_eq_getD_getElem?, hn]
          exact ⟨n.add b, rfl, hcovers.add b⟩
        · rw [if_neg (by simpa using hb)]
          exact ⟨n, hn, hcovers⟩
  obtain ⟨front, back, rfl⟩ := List.append_of_mem ha
  rw [needsOf, List.foldl_append, List.foldl_cons]
  refine hkeep back _ ⟨_, Std.ExtTreeMap.getElem?_insert_self, DatabaseNeed.covers_add _ a⟩

namespace RequiredRoles

variable {static : List String} {accesses : List PlannedAccess} {role : String}

theorem of_eq_foldl (static : List String) (accesses : List PlannedAccess) :
    of static accesses = (needsOf accesses).toList.foldl
      (fun required n => required.insert (n.2.role n.1)
        (some { database := n.1, schemas := n.2.schemas, privileges := n.2.privileges }))
      (ofStatic static) := rfl

theorem mem_ofStatic : role ∈ ofStatic static ↔ role ∈ static := by
  have h : role ∈ ofStatic static ↔
      role ∈ (∅ : RequiredRoles) ∨ ∃ name ∈ static, name = role := NameMap.mem_foldl_insert
  rw [h]
  simp

/-- The roles that are needed are the static roles and one managed role for each database. -/
theorem mem_of_iff :
    role ∈ of static accesses ↔ role ∈ static ∨
      ∃ (database : String) (n : DatabaseNeed), (needsOf accesses)[database]? = some n ∧
        n.role database = role := by
  rw [of_eq_foldl, NameMap.mem_foldl_insert, mem_ofStatic]
  refine or_congr Iff.rfl ⟨?_, ?_⟩
  · rintro ⟨⟨database, n⟩, hmem, hrole⟩
    exact ⟨database, n, Std.ExtTreeMap.mem_toList_iff_getElem?_eq_some.mp hmem, hrole⟩
  · rintro ⟨database, n, hn, hrole⟩
    exact ⟨(database, n), Std.ExtTreeMap.mem_toList_iff_getElem?_eq_some.mpr hn, hrole⟩

/-- The need of a database adds up from the accesses to it. -/
theorem getD_needsOf (accesses : List PlannedAccess) (database : String) :
    (needsOf accesses).getD database {} =
      (accesses.filter fun a => a.database = database).foldl DatabaseNeed.add {} := by
  have hfold : ∀ (l : List PlannedAccess) (m : NameMap DatabaseNeed),
      (l.foldl (fun m a => m.insert a.database ((m.getD a.database {}).add a)) m).getD database
        {} = (l.filter fun a => a.database = database).foldl DatabaseNeed.add
          (m.getD database {}) := by
    intro l
    induction l with
    | nil => exact fun _ => rfl
    | cons a rest ih =>
        intro m
        rw [List.foldl_cons, ih, Std.ExtTreeMap.getD_insert]
        by_cases ha : a.database = database
        · rw [if_pos (Std.LawfulEqCmp.compare_eq_iff_eq.mpr ha), ha,
            List.filter_cons_of_pos (by simpa using ha), List.foldl_cons]
        · rw [if_neg (mt Std.LawfulEqCmp.compare_eq_iff_eq.mp ha),
            List.filter_cons_of_neg (by simpa using ha)]
  exact (hfold accesses ∅).trans (by simp)

theorem eq_foldl_of_needsOf {database : String} {n : DatabaseNeed}
    (h : (needsOf accesses)[database]? = some n) :
    n = (accesses.filter fun a => a.database = database).foldl DatabaseNeed.add {} := by
  rw [← getD_needsOf, Std.ExtTreeMap.getD_eq_getD_getElem?, h, Option.getD_some]

/-- What holds of a need as soon as it holds of one of its accesses. -/
theorem needsOf_iff {P : DatabaseNeed → Prop} {Q : PlannedAccess → Prop} (hempty : ¬P {})
    (hadd : ∀ n a, P (n.add a) ↔ P n ∨ Q a) {database : String} {n : DatabaseNeed}
    (h : (needsOf accesses)[database]? = some n) :
    P n ↔ ∃ a ∈ accesses, a.database = database ∧ Q a := by
  have hfold : ∀ (l : List PlannedAccess) (n : DatabaseNeed),
      P (l.foldl DatabaseNeed.add n) ↔ P n ∨ ∃ a ∈ l, Q a := by
    intro l
    induction l with
    | nil => simp
    | cons a rest ih =>
        intro n
        rw [List.foldl_cons, ih, hadd]
        simp only [List.mem_cons, exists_eq_or_imp, or_assoc]
  rw [eq_foldl_of_needsOf h, hfold]
  simp [hempty, and_assoc]

/-- The need of a database is to write when one of the accesses to it is. -/
theorem privilege_needsOf {database : String} {n : DatabaseNeed}
    (h : (needsOf accesses)[database]? = some n) :
    n.privilege = .write ↔ ∃ a ∈ accesses, a.database = database ∧ a.privilege = .write := by
  refine needsOf_iff (P := fun n => n.privilege = .write) (by simp) (fun n a => ?_) h
  unfold DatabaseNeed.add
  cases n.privilege <;> cases a.privilege <;> simp [Privilege.max]

/-- The need of a database has the extended privileges when one of the accesses to it writes with
them. -/
theorem extended_needsOf {database : String} {n : DatabaseNeed}
    (h : (needsOf accesses)[database]? = some n) :
    n.extended = true ↔
      ∃ a ∈ accesses, a.database = database ∧ a.privilege = .write ∧ a.extended = true := by
  refine needsOf_iff (P := fun n => n.extended = true) (by simp) (fun n a => ?_) h
  simp [DatabaseNeed.add]

/-- The need of a database is for the schemas of the accesses to it. -/
theorem mem_schemas_needsOf {database schema : String} {n : DatabaseNeed}
    (h : (needsOf accesses)[database]? = some n) :
    schema ∈ n.schemas ↔ ∃ a ∈ accesses, a.database = database ∧ a.schema = schema := by
  refine needsOf_iff (P := fun n => schema ∈ n.schemas) (by simp) (fun n a => ?_) h
  rw [DatabaseNeed.add, Std.ExtTreeSet.mem_insert, Std.LawfulEqCmp.compare_eq_iff_eq, or_comm]

theorem mem_needsOf {database : String} :
    database ∈ needsOf accesses ↔ ∃ a ∈ accesses, a.database = database := by
  have hmem : database ∈ needsOf accesses ↔
      database ∈ (∅ : NameMap DatabaseNeed) ∨ ∃ a ∈ accesses, a.database = database :=
    NameMap.mem_foldl_insert
  rw [hmem]
  simp

/-- Which roles are needed depends on nothing but which accesses there are. -/
theorem mem_of_iff_exists_access :
    role ∈ of static accesses ↔ role ∈ static ∨ ∃ a ∈ accesses, ∃ n : DatabaseNeed,
      (n.privilege = .write ↔ ∃ b ∈ accesses, b.database = a.database ∧ b.privilege = .write) ∧
        n.role a.database = role := by
  rw [mem_of_iff]
  refine or_congr Iff.rfl ⟨?_, ?_⟩
  · rintro ⟨database, n, hn, hrole⟩
    have hmem : database ∈ needsOf accesses := by
      rw [Std.ExtTreeMap.mem_iff_isSome_getElem?, hn]
      rfl
    obtain ⟨a, ha, rfl⟩ := mem_needsOf.mp hmem
    exact ⟨a, ha, n, privilege_needsOf hn, hrole⟩
  · rintro ⟨a, ha, n, hprivilege, hrole⟩
    obtain ⟨n', hn', -⟩ := exists_need ha
    have hsame : n'.privilege = n.privilege := by
      have hboth := (privilege_needsOf hn').trans hprivilege.symm
      cases h' : n'.privilege <;> cases h : n.privilege <;> simp_all
    refine ⟨a.database, n', hn', ?_⟩
    rw [← hrole, DatabaseNeed.role, DatabaseNeed.role, hsame]

/-- A role that is needed is static or managed. -/
theorem static_or_managed (h : role ∈ of static accesses) :
    role ∈ static ∨ isManagedRole role = true := by
  rcases mem_of_iff.mp h with hstatic | ⟨database, n, -, rfl⟩
  · exact .inl hstatic
  · exact .inr (isManagedRole_role n database)

theorem getElem?_ofStatic_ne {g : ManagedGrant} : (ofStatic static)[role]? ≠ some (some g) := by
  have hfold : ∀ (roles : List String) (required : RequiredRoles),
      required[role]? ≠ some (some g) →
      (roles.foldl (fun required role => required.insert role none) required)[role]? ≠
        some (some g) := by
    intro roles
    induction roles with
    | nil => exact fun required h => h
    | cons first rest ih =>
        intro required h
        refine ih (required.insert first none) ?_
        rw [Std.ExtTreeMap.getElem?_insert]
        split
        · simp
        · exact h
  exact hfold static ∅ (by simp)

/-- The privileges that a managed role carries are those that the accesses to its database come
to. -/
theorem getElem?_of_eq_some_iff {g : ManagedGrant} :
    (of static accesses)[role]? = some (some g) ↔
      ∃ (database : String) (n : DatabaseNeed), (needsOf accesses)[database]? = some n ∧
        n.role database = role ∧
        g = { database, schemas := n.schemas, privileges := n.privileges } := by
  have hvalue : ∀ (database : String) (n : DatabaseNeed), (needsOf accesses)[database]? = some n →
      (of static accesses)[n.role database]? =
        some (some { database, schemas := n.schemas, privileges := n.privileges }) := by
    intro database n hn
    have hmem : (database, n) ∈ (needsOf accesses).toList :=
      Std.ExtTreeMap.mem_toList_iff_getElem?_eq_some.mpr hn
    refine NameMap.getElem?_foldl_insert_of_mem hmem ?_
    rintro ⟨database', n'⟩ hmem' hrole
    obtain rfl : database' = database := role_inj hrole
    rw [Std.ExtTreeMap.mem_toList_iff_getElem?_eq_some.mp hmem'] at hn
    cases hn
    rfl
  constructor
  · intro h
    by_cases hnone : ∀ n ∈ (needsOf accesses).toList, n.2.role n.1 ≠ role
    · rw [of_eq_foldl, NameMap.getElem?_foldl_insert_of_ne hnone] at h
      exact absurd h getElem?_ofStatic_ne
    · obtain ⟨n, hn⟩ := Classical.not_forall.mp hnone
      obtain ⟨hmem, hrole⟩ := Classical.not_imp.mp hn
      have hrole := Classical.not_not.mp hrole
      have hget := Std.ExtTreeMap.mem_toList_iff_getElem?_eq_some.mp hmem
      rw [← hrole, hvalue n.1 n.2 hget] at h
      exact ⟨n.1, n.2, hget, hrole, (Option.some.inj (Option.some.inj h)).symm⟩
  · rintro ⟨database, n, hn, rfl, rfl⟩
    exact hvalue database n hn

theorem isManagedRole_of_managed {g : ManagedGrant}
    (h : (of static accesses)[role]? = some (some g)) : isManagedRole role = true := by
  obtain ⟨database, n, -, rfl, -⟩ := getElem?_of_eq_some_iff.mp h
  exact isManagedRole_role n database

end RequiredRoles

end PgSteward
