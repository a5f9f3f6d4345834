import PgSteward.Proofs.ClusterRecord
import PgSteward.Proofs.RoleExchange
import PgSteward.Proofs.SchemaGrants

/-!
# Roles are prepared before they are given

A login role that has got a managed role by a run on a host has got it with all its privileges in
place, whether the run has failed or not.  The record of the run tells in which order this was done
(`prepared_before_given`): up to the first grant of the role to the login role, the last statements
have made the role in its database and given it its privileges there, and none of them has failed.

The roles are given one after the other, and the statements for another role are no grants of this
one.  So nothing that is recorded before them is a grant of the role to the login role.
-/

namespace PgSteward

open Program

namespace Statement

theorem text_grantRoles (role member : Identifier) :
    (grantRoles [role] member).text = s!"GRANT {role.name} TO {member.name}" := rfl

theorem text_createNologin (role : Identifier) :
    (createRole role false none []).text = s!"CREATE ROLE {role.name} WITH NOLOGIN" := by
  rw [← String.toList_inj]
  unfold text passwordText rolesText
  simp [toString]

end Statement

namespace Converger

variable {c : Converger Cluster} {session : Session} {login host role : String}
  {admin : AdminLogin} {g : ManagedGrant} {s t : Cluster}

/-! ## What is recorded of a role -/

/-- The record of the preparation of a managed role.  Nothing in it has failed, but the role may
have been there. -/
def preparation (session : Session) (role : String) (g : ManagedGrant)
    (error : Option SqlError) : List Executed :=
  ⟨session, s!"CREATE ROLE {role} WITH NOLOGIN", error⟩ ::
    ⟨session, s!"GRANT CONNECT ON DATABASE {g.database} TO {role}", none⟩ ::
      g.schemas.toList.flatMap fun schema =>
        [⟨session, s!"GRANT USAGE ON SCHEMA {schema} TO {role}", none⟩,
          ⟨session, s!"GRANT {g.privileges.sql} ON ALL TABLES IN SCHEMA {schema} TO {role}", none⟩]

theorem log_of_grantSchemas (hc : c.server = Cluster.server) {schemas : List String}
    (h : c.grantSchemas session role g schemas s = .ok () t) :
    t.log = s.log ++ schemas.flatMap fun schema =>
      [⟨session, s!"GRANT USAGE ON SCHEMA {schema} TO {role}", none⟩,
        ⟨session, s!"GRANT {g.privileges.sql} ON ALL TABLES IN SCHEMA {schema} TO {role}",
          none⟩] := by
  induction schemas generalizing s with
  | nil =>
      cases h
      exact (List.append_nil _).symm
  | cons schema rest ih =>
      obtain ⟨_, s₁, husage, h⟩ := bind_eq_ok_iff.mp h
      obtain ⟨_, s₂, htables, hrest⟩ := bind_eq_ok_iff.mp h
      rw [hc] at husage htables
      obtain ⟨i, hi, husage⟩ := Cluster.bind_name_eq_ok_iff.mp husage
      obtain ⟨r, hr, husage⟩ := Cluster.bind_name_eq_ok_iff.mp husage
      obtain ⟨i', hi', htables⟩ := Cluster.bind_name_eq_ok_iff.mp htables
      obtain ⟨r', hr', htables⟩ := Cluster.bind_name_eq_ok_iff.mp htables
      obtain rfl : i = i' := Identifier.eq_of_name (hi.trans hi'.symm)
      obtain rfl : r = r' := Identifier.eq_of_name (hr.trans hr'.symm)
      rw [ih hrest, Cluster.log_of_run htables, Cluster.log_of_run husage, ← hi, ← hr,
        List.flatMap_cons]
      simp only [List.append_assoc]
      rfl

/-- A managed role that has been prepared is prepared by the record. -/
theorem log_of_prepare (hc : c.server = Cluster.server)
    (h : c.prepare host admin role g s = .ok () t) :
    ∃ error : Option SqlError, (∀ e ∈ error, e.isAlreadyThere = true) ∧
      t.log = s.log ++ preparation (.opened (.admin host g.database admin)) role g error := by
  unfold prepare at h
  obtain ⟨session, s₁, hconnect, h⟩ := bind_eq_ok_iff.mp h
  obtain ⟨_, s₂, hrole, h⟩ := bind_eq_ok_iff.mp h
  obtain ⟨_, s₃, hdatabase, h⟩ := bind_eq_ok_iff.mp h
  obtain ⟨_, s₄, hschemas, hclose⟩ := bind_eq_ok_iff.mp h
  have hlog := log_of_grantSchemas hc hschemas
  rw [hc] at hconnect hrole hdatabase hclose
  cases hconnect
  cases hclose
  rw [Server.ensureRole_plain] at hrole
  obtain ⟨r, hr, hrole⟩ := Cluster.bind_name_eq_ok_iff.mp hrole
  obtain ⟨isNew, s₂', hcreate, hend⟩ := bind_eq_ok_iff.mp hrole
  cases hend
  obtain ⟨d, hd, hdatabase⟩ := Cluster.bind_name_eq_ok_iff.mp hdatabase
  obtain ⟨r', hr', hdatabase⟩ := Cluster.bind_name_eq_ok_iff.mp hdatabase
  obtain rfl : r = r' := Identifier.eq_of_name (hr.trans hr'.symm)
  obtain ⟨error, herror, hcreated⟩ := Cluster.log_of_create hcreate
  refine ⟨error, herror, ?_⟩
  rw [hlog, Cluster.log_of_run hdatabase, hcreated, Statement.text_createNologin, preparation,
    ← hd, ← hr]
  simp only [List.append_assoc]
  rfl

/-- A managed role that has been given has been prepared right before. -/
theorem log_of_give (hc : c.server = Cluster.server)
    (h : c.give session host admin login role (some g) s = .ok () t) :
    ∃ (r m : Identifier) (error : Option SqlError), r.name = role ∧ m.name = login ∧
      (∀ e ∈ error, e.isAlreadyThere = true) ∧
      t.log = s.log ++ preparation (.opened (.admin host g.database admin)) role g error ++
        [⟨session, (Statement.grantRoles [r] m).text, none⟩] := by
  obtain ⟨_, s₁, hprepare, hgrant⟩ := bind_eq_ok_iff.mp h
  obtain ⟨error, herror, hlog⟩ := log_of_prepare hc hprepare
  rw [hc] at hgrant
  obtain ⟨r, hr, hgrant⟩ := Cluster.bind_name_eq_ok_iff.mp hgrant
  obtain ⟨m, hm, hgrant⟩ := Cluster.bind_name_eq_ok_iff.mp hgrant
  exact ⟨r, m, error, hr, hm, herror, by rw [Cluster.log_of_run hgrant, hlog]⟩

/-! ## The first grant of a role -/

theorem text_createRole_ne {i r m : Identifier} {isLogin : Bool} :
    (Statement.createRole i isLogin none []).text ≠ (Statement.grantRoles [r] m).text := by
  intro htext
  have hwords : (Statement.createRole i isLogin none []).words =
      (Statement.grantRoles [r] m).words :=
    Statement.words_eq_of_text_eq ⟨rfl, rfl⟩ rfl htext
  simp [Statement.words] at hwords

/-- No statement by which another role is given is a grant of this one. -/
theorem GivenBy.text_ne {other : String} {grant : Option ManagedGrant} {st : Statement}
    {r m : Identifier} (h : GivenBy login other grant st) (hother : other ≠ r.name) :
    st.text ≠ (Statement.grantRoles [r] m).text := by
  have hplain : st.IsPlain := by
    cases h with
    | createRole => exact ⟨rfl, rfl⟩
    | grantRole => exact rfl
    | _ => trivial
  intro htext
  have hwords : st.words = (Statement.grantRoles [r] m).words :=
    Statement.words_eq_of_text_eq hplain rfl htext
  cases h with
  | createRole => simp [Statement.words] at hwords
  | grantConnect => simp [Statement.words] at hwords
  | grantUsage => simp [Statement.words] at hwords
  | grantTables p => cases p <;> simp [Statement.words, TablePrivileges.words] at hwords
  | grantRole hi _ =>
      simp only [Statement.words, List.map_cons, List.map_nil, List.cons_append, List.nil_append,
        List.cons.injEq] at hwords
      exact hother (hi.symm.trans hwords.2.1)

/-- Whether the record of a run goes on, up to the first grant of a managed role to a login role,
with statements of which the last have prepared the role, and this grant has succeeded. -/
def RecordsPrepared (c : Converger Cluster) (login host role : String) (g : ManagedGrant)
    (s t : Cluster) : Prop :=
  ∃ (admin : AdminLogin) (error : Option SqlError) (earlier later : List Executed),
    c.logins[host]? = some admin ∧ (∀ e ∈ error, e.isAlreadyThere = true) ∧
      t.log = s.log ++ earlier ++
        preparation (.opened (.admin host g.database admin)) role g error ++
          ⟨c.adminSession host admin, s!"GRANT {role} TO {login}", none⟩ :: later ∧
      ∀ entry ∈ earlier, entry.statement ≠ s!"GRANT {role} TO {login}"

/-- Roles that are given before another one are not this one. -/
theorem recordsOnly_gives (hc : c.server = Cluster.server) {r m : Identifier} {roles : List String}
    {grant : String → Option ManagedGrant} (hroles : r.name ∉ roles)
    {before : List Executed}
    (hs : s.RecordsOnly (· ≠ (Statement.grantRoles [r] m).text) before) :
    ((roles.map fun role => c.give session host admin login role (grant role)).foldl
      (fun s p => (p.outcome s).2) s).RecordsOnly (· ≠ (Statement.grantRoles [r] m).text)
        before := by
  refine foldl_outcome_preserves ?_ hs
  intro p hp
  obtain ⟨role, hrole, rfl⟩ := List.mem_map.mp hp
  have hother : role ≠ r.name := fun heq => hroles (heq ▸ hrole)
  have hserver := (Cluster.related_recordsOnly (· ≠ (Statement.grantRoles [r] m).text) before).imp
    fun st (hst : GivenBy login role (grant role) st) => hst.text_ne hother
  rw [← hc] at hserver
  exact related_give hserver

/-- A managed role that can be given is prepared in the record. -/
theorem recordsPrepared_of_succeeds (hc : c.server = Cluster.server)
    {accesses : List PlannedAccess} (hreaches : c.Reaches login host accesses admin s)
    (hneeded : (RequiredRoles.onHost c.staticRoles accesses)[role]? = some (some g))
    (hnew : role ∉ s.catalog.rolesOf login)
    (hgive : (c.give (c.adminSession host admin) host admin login role (some g)).succeeds s =
      true) :
    c.RecordsPrepared login host role g s ((c.convergeHost login host accesses).outcome s).2 := by
  obtain ⟨t, hrequire, -, hbesides, houtcome⟩ := outcome_of_reaches hc hreaches
  let required := RequiredRoles.onHost c.staticRoles accesses
  let session := c.adminSession host admin
  have hadd : role ∈ (RoleChange.of (s.catalog.rolesOf login).toList required).add := by
    refine RoleChange.mem_add_iff.mpr ⟨?_, hnew⟩
    rw [Std.ExtTreeMap.mem_iff_isSome_getElem?, hneeded]
    rfl
  obtain ⟨front, back, hsplit, hfront⟩ := List.eq_append_cons_of_mem hadd
  -- The run gets to the role in a cluster where it can be given, too.
  let give : String → Program Cluster SqlError Unit := fun role =>
    c.give session host admin login role (required[role]?.join)
  let u := (front.map give).foldl (fun s p => (p.outcome s).2) t
  have hgiven : (c.give session host admin login role (some g)).succeeds u = true := by
    rw [← hgive]
    exact succeedsBy_give hc _ _ ((keeps_besides_gives hc front t).trans hbesides)
  obtain ⟨_, v, hrun⟩ := succeeds_iff.mp hgiven
  obtain ⟨r, m, error, hr, hm, herror, hlog⟩ := log_of_give hc hrun
  have hearlier : u.RecordsOnly (· ≠ (Statement.grantRoles [r] m).text) s.log := by
    have hserver := Cluster.related_recordsOnly (· ≠ (Statement.grantRoles [r] m).text) s.log
    rw [← hc] at hserver
    have hstart : (connected host c.adminDatabase admin s).RecordsOnly
        (· ≠ (Statement.grantRoles [r] m).text) s.log :=
      Cluster.recordsOnly_refl _ (connected host c.adminDatabase admin s)
    obtain ⟨_, -, rfl, ht⟩ := (related_require hserver (fun _ _ => text_createRole_ne)
      accesses).of_ok ⟨rfl, hstart⟩ hrequire
    exact recordsOnly_gives hc (hr ▸ hfront) ht
  let taken : List (Program Cluster SqlError Unit) :=
    (RoleChange.of (s.catalog.rolesOf login).toList required).remove.map fun role =>
      c.server.revokeRole session role login
  have hsteps : c.stepsOn login host accesses admin s =
      front.map give ++ give role :: (back.map give ++ taken) := by
    rw [stepsOn, steps, hsplit, List.map_append, List.append_assoc]
    rfl
  have hv : ((give role).outcome u).2 = v := by
    show ((c.give session host admin login role (required[role]?.join)).outcome u).2 = v
    rw [hneeded, Option.join_some, outcome, hrun]
  rw [hsteps, List.foldl_append, List.foldl_cons, hv] at houtcome
  -- Whatever comes after the role, it only adds to the record.
  have hlater : v.log <+: ((c.convergeHost login host accesses).outcome s).2.log := by
    have hserver := Cluster.related_recorded (P := RunBy login required) v.log
    rw [← hc] at hserver
    have hrelated : ∀ p ∈ c.stepsOn login host accesses admin s,
        Related (fun s t => s = t ∧ v.log <+: s.log) p p :=
      List.forall₂_same.mp (related_steps hserver _)
    rw [hsteps] at hrelated
    rw [houtcome]
    exact foldl_outcome_preserves (fun p hp => hrelated p
      (List.mem_append_right _ (List.mem_cons_of_mem _ hp))) (List.prefix_refl _)
  obtain ⟨earlier, hu, hearlier⟩ := hearlier
  obtain ⟨later, hlater⟩ := hlater
  refine ⟨admin, error, earlier, later, hreaches.1, herror, ?_, ?_⟩
  · rw [← hlater, hlog, hu, Statement.text_grantRoles, hr, hm]
    simp only [List.append_assoc]
    rfl
  · rw [← hr, ← hm]
    exact hearlier

/-- A managed role that a login role has got by a run on a host, whatever has failed in it, has been
prepared before the first grant of the role to the login role: with the schemas of all accesses to
its database, and with privileges that include those of each. -/
theorem prepared_before_given (logins : NameMap AdminLogin) (static : List String)
    (adminDatabase login host : String) (accesses : List PlannedAccess) (s : Cluster)
    (hneeded : (RequiredRoles.onHost static accesses)[role]? = some (some g))
    (hnew : role ∉ s.catalog.rolesOf login)
    (hheld : role ∈ (((inMemory logins static adminDatabase).convergeHost login host
      accesses).outcome s).2.catalog.rolesOf login) :
    (inMemory logins static adminDatabase).RecordsPrepared login host role g s
        (((inMemory logins static adminDatabase).convergeHost login host accesses).outcome s).2 ∧
      (∀ schema, schema ∈ g.schemas ↔
        ∃ a ∈ accesses, a.database = g.database ∧ a.schema = schema) ∧
      ∀ a ∈ accesses, a.database = g.database → g.privileges.Includes a.privileges := by
  have hc : (inMemory logins static adminDatabase).server = Cluster.server := rfl
  refine ⟨?_, ?_⟩
  · by_cases hreaches : ∃ admin,
        (inMemory logins static adminDatabase).Reaches login host accesses admin s
    · obtain ⟨admin, hadmin⟩ := hreaches
      rw [rolesOf_outcome hc hadmin, if_pos rfl] at hheld
      obtain ⟨hbefore, -⟩ | ⟨-, -, hgive⟩ := hheld
      · exact absurd hbefore hnew
      · refine recordsPrepared_of_succeeds hc hadmin hneeded hnew ?_
        rw [← hgive]
        show _ = (give _ _ _ _ _ _ ((RequiredRoles.onHost static accesses)[role]?.join)).succeeds s
        rw [hneeded, Option.join_some]
    · rw [rolesOf_of_not_reaches hc (not_exists.mp hreaches)] at hheld
      exact absurd hheld hnew
  · unfold RequiredRoles.onHost at hneeded
    split at hneeded
    next => simp at hneeded
    next =>
      obtain ⟨database, n, hn, -, rfl⟩ := RequiredRoles.getElem?_of_eq_some_iff.mp hneeded
      refine ⟨fun schema => RequiredRoles.mem_schemas_needsOf hn, fun a ha hdatabase => ?_⟩
      obtain ⟨n', hn', hcovers⟩ := exists_need ha
      rw [hdatabase, hn] at hn'
      cases hn'
      exact hcovers.2

/-- Bob reads orders and is to write to it.  The role that reads cannot be taken away from him, so
the run fails, but the role that writes has been given, with its privileges in place. -/
theorem writer_prepared :
    (RequiredRoles.onHost [] [ordersToWrite])["orders_readwrite"]? = some (some
        { database := "orders", schemas := Std.ExtTreeSet.ofList ["orders"] _,
          privileges := .write }) ∧
      "orders_readwrite" ∉
        (readerCluster [("REVOKE orders_read FROM", "42501")]).catalog.rolesOf "bob" ∧
      ((inMemory exchangeLogins [] "postgres").convergeHost "bob" "db:5432"
        [ordersToWrite]).succeeds (readerCluster [("REVOKE orders_read FROM", "42501")]) = false ∧
      (inMemory exchangeLogins [] "postgres").RecordsPrepared "bob" "db:5432" "orders_readwrite"
        { database := "orders", schemas := Std.ExtTreeSet.ofList ["orders"] _,
          privileges := .write }
        (readerCluster [("REVOKE orders_read FROM", "42501")])
        (((inMemory exchangeLogins [] "postgres").convergeHost "bob" "db:5432"
          [ordersToWrite]).outcome (readerCluster [("REVOKE orders_read FROM", "42501")])).2 := by
  have hneeded : (RequiredRoles.onHost [] [ordersToWrite])["orders_readwrite"]? = some (some
      { database := "orders", schemas := Std.ExtTreeSet.ofList ["orders"] _,
        privileges := .write }) := by
    decide +kernel
  have hnew : "orders_readwrite" ∉
      (readerCluster [("REVOKE orders_read FROM", "42501")]).catalog.rolesOf "bob" := by
    decide +kernel
  have hheld : "orders_readwrite" ∈ (((inMemory exchangeLogins [] "postgres").convergeHost "bob"
      "db:5432" [ordersToWrite]).outcome
        (readerCluster [("REVOKE orders_read FROM", "42501")])).2.catalog.rolesOf "bob" := by
    decide +kernel
  exact ⟨hneeded, hnew, by decide +kernel, (prepared_before_given exchangeLogins [] "postgres"
    "bob" "db:5432" [ordersToWrite] _ hneeded hnew hheld).1⟩

end Converger

end PgSteward
