import PgSteward.Controller.User
import PgSteward.Proofs.GrantRuns
import PgSteward.Proofs.ShardMirror
import PgSteward.Proofs.WatchedServer

/-!
# Events of users and the shard

User resources meet in the shard by the names of their users only.  To apply a resource puts the
statement of its name in or mends it, and to clean one up takes the statement of its name out,
whoever else has the name and whatever name the resource had before.

So after events that all succeed the shard holds a statement for each name that has been applied and
not been cleaned up since (`Kept`).  The names that it should hold are those that the resources left
have now (`Live`).  `shard_mirrors_live_iff` says that it does when the two are the same, and
`kept_iff_live` that they are the same as long as resources do not share names or change them.
-/

namespace PgSteward

open Program
open StoredPolicy (statementsOf)

variable {σ τ ε α : Type}

/-! ## A policy store besides other surroundings -/

/-- Surroundings with a policy store besides them. -/
def Surroundings.withStore (around : Surroundings σ) (store : PolicyStore τ) :
    Surroundings (σ × τ) :=
  { around.onPart Prod.fst (fun s p => (s, p.2)) with
    policies := store.onPart Prod.snd fun t p => (p.1, t) }

/-- Surroundings with a policy store in memory besides them. -/
def Surroundings.withPolicies (around : Surroundings σ) : Surroundings (σ × PolicyMemory) :=
  { around.onPart Prod.fst (fun s p => (s, p.2)) with
    policies := PolicyMemory.store.onPart Prod.snd fun m p => (p.1, m) }

theorem Program.related_onPart_fst (t : τ) (q : Program σ ε α) :
    Related (fun (p : σ × τ) s => p = (s, t)) (onPart Prod.fst (fun s p => (s, p.2)) q) q := by
  rintro _ s rfl
  rw [Agree, outcome_onPart]
  exact ⟨rfl, rfl⟩

theorem Program.related_onPart_snd (s : σ) (q : Program τ ε α) :
    Related (fun (p : σ × τ) t => p = (s, t)) (onPart Prod.snd (fun t p => (p.1, t)) q) q := by
  rintro _ t rfl
  rw [Agree, outcome_onPart]
  exact ⟨rfl, rfl⟩

/-- To give a user its access is the same work with a policy store besides, and changes no
policy. -/
theorem Surroundings.related_withStore (around : Surroundings σ) (store : PolicyStore τ) (t : τ) :
    (around.withStore store).Related (fun p s => p = (s, t)) (fun _ => True) around where
  server :=
    { connect := fun target => Program.related_onPart_fst t (around.server.connect target)
      run := fun session st _ => Program.related_onPart_fst t (around.server.run session st)
      ask := fun session query => Program.related_onPart_fst t (around.server.ask session query)
      close := fun session => Program.related_onPart_fst t (around.server.close session) }
  read := fun kind space key =>
    Program.related_onPart_fst t (around.resolver.read kind space key)
  hostCredentials := fun space name =>
    Program.related_onPart_fst t (around.hostCredentials space name)
  inventory := fun space => Program.related_onPart_fst t (around.inventory space)

/-- Work on policies is the same with other surroundings besides the store, and changes none of
them. -/
theorem PolicyStore.related_onPart_snd (s : σ) (store : PolicyStore τ) :
    (store.onPart Prod.snd fun t p => (p.1, t)).Related (fun (p : σ × τ) t => p = (s, t)) store
    where
  list := fun path => Program.related_onPart_snd s (store.list path)
  create := fun name path document =>
    Program.related_onPart_snd s (store.create name path document)
  createVersion := fun arn document =>
    Program.related_onPart_snd s (store.createVersion arn document)
  deleteVersion := fun arn versionId =>
    Program.related_onPart_snd s (store.deleteVersion arn versionId)
  attachedRoles := fun arn => Program.related_onPart_snd s (store.attachedRoles arn)
  attach := fun role arn => Program.related_onPart_snd s (store.attach role arn)
  detach := fun role arn => Program.related_onPart_snd s (store.detach role arn)
  delete := fun arn => Program.related_onPart_snd s (store.delete arn)

namespace Settings

variable (settings : Settings) (around : Surroundings σ) (store : PolicyStore τ) (now : Instant)

theorem related_grants (t : τ) (space : String) (spec : UserSpec) :
    Related (fun p s => p = (s, t))
      ((settings.services (around.withStore store) now).granter.sync now space
        (sanitize spec.name) spec.read spec.write)
      ((settings.services around now).granter.sync now space (sanitize spec.name) spec.read
        spec.write) :=
  (around.related_withStore store t).sync Converger.gives_all (fun _ _ => trivial) settings now
    space (sanitize spec.name) spec.read spec.write

theorem related_statement (s : σ) (user role : String) :
    Related (fun p t => p = (s, t))
      ((settings.services (around.withStore store) now).sharder.ensure user role)
      ((Sharder.mk store settings.shard).ensure user role) :=
  (store.related_onPart_snd s).ensure user role

end Settings

/-! ## One event -/

/-- A user is brought about when it has a name and is given its access first, and then a
statement. -/
theorem Services.syncUser_eq_ok_iff {svc : Services σ} {space : String} {spec : UserSpec}
    {s t : σ} :
    svc.syncUser space spec s = .ok () t ↔ spec.name.isEmpty = false ∧ ∃ u,
      svc.granter.sync svc.now space (sanitize spec.name) spec.read spec.write s = .ok () u ∧
        svc.sharder.ensure spec.name (sanitize spec.name) u = .ok () t := by
  unfold syncUser
  cases hname : spec.name.isEmpty with
  | true =>
      constructor
      · intro h
        cases h
      · rintro ⟨h, -⟩
        cases h
  | false =>
      constructor
      · intro h
        obtain ⟨errors, u, hgather, hfail⟩ := bind_eq_ok_iff.mp h
        obtain ⟨hnone, rfl⟩ := failIf_eq_ok_iff.mp hfail
        rw [Error.combine_eq_none_iff] at hnone
        subst hnone
        obtain ⟨_, v, hgrant, hrest⟩ := bind_eq_ok_iff.mp (gather_eq_nil_iff.mp hgather)
        obtain ⟨_, w, hensure, hend⟩ := bind_eq_ok_iff.mp hrest
        cases hend
        exact ⟨rfl, v, hgrant, mapError_eq_ok_iff.mp hensure⟩
      · rintro ⟨-, u, hgrant, hensure⟩
        refine bind_eq_ok_iff.mpr ⟨[], t, gather_eq_nil_iff.mpr ?_, rfl⟩
        refine bind_eq_ok_iff.mpr ⟨(), u, hgrant, ?_⟩
        exact bind_eq_ok_iff.mpr ⟨(), t, mapError_eq_ok_iff.mpr hensure, rfl⟩

/-- With a policy store besides other surroundings, the access of a user is the work on these and
its statement the work on the store. -/
theorem Services.syncUser_withPolicies_eq_ok_iff {settings : Settings} {around : Surroundings σ}
    {now : Instant} {space : String} {spec : UserSpec} {s t : σ} {m n : PolicyMemory} :
    (settings.services around.withPolicies now).syncUser space spec (s, m) = .ok () (t, n) ↔
      spec.name.isEmpty = false ∧
      (settings.services around now).granter.sync now space (sanitize spec.name) spec.read
        spec.write s = .ok () t ∧
      (Sharder.inMemory settings.shard).ensure spec.name (sanitize spec.name) m = .ok () n := by
  have hsync := settings.related_grants around PolicyMemory.store now m space spec
  have hensure := fun u : σ =>
    settings.related_statement around PolicyMemory.store now u spec.name (sanitize spec.name)
  rw [syncUser_eq_ok_iff]
  constructor
  · rintro ⟨hname, p, hgrant, hstatement⟩
    obtain ⟨u, hu, rfl⟩ := hsync.of_ok rfl hgrant
    obtain ⟨n', hn', heq⟩ := (hensure u).of_ok rfl hstatement
    cases heq
    exact ⟨hname, hu, hn'⟩
  · rintro ⟨hname, hgrant, hstatement⟩
    obtain ⟨p, hp, rfl⟩ := hsync.symm.of_ok rfl hgrant
    obtain ⟨q, hq, rfl⟩ := (hensure t).symm.of_ok rfl hstatement
    exact ⟨hname, (t, m), hp, hq⟩

/-- What is to be done about a user resource at an instant. -/
structure UserCall where
  now : Instant
  event : UserEvent
  resource : UserResource

namespace UserCall

/-- The name of the user. -/
def name (call : UserCall) : String := call.resource.spec.name

/-- The namespace and the name of the resource. -/
def key (call : UserCall) : Except Error (String × String) := call.resource.metadata.key

/-- Does what is to be done. -/
def run (settings : Settings) (around : Surroundings σ) (call : UserCall) :
    Program σ Error Unit := do
  let _ ← (settings.services around call.now).handleUser call.event call.resource
  return ()

/-- The names with a statement and their roles, after an event more. -/
def step (users : NameMap String) (call : UserCall) : NameMap String :=
  match call.event with
  | .apply => users.insert call.name (sanitize call.name)
  | .cleanup => users.erase call.name

/-- An event that succeeds keeps the shard in step with the names. -/
theorem run_ok {settings : Settings} {around : Surroundings σ} {call : UserCall}
    {users : NameMap String} {s t : σ} {m n : PolicyMemory}
    (h : Mirrors settings.shard.atLeastOne users m)
    (hrun : call.run settings around.withPolicies (s, m) = .ok () (t, n)) :
    Mirrors settings.shard.atLeastOne (step users call) n := by
  obtain ⟨action, p, hhandle, hend⟩ := bind_eq_ok_iff.mp hrun
  cases hend
  obtain ⟨⟨space, resource⟩, p, hkey, hrest⟩ := bind_eq_ok_iff.mp hhandle
  obtain ⟨-, rfl⟩ := ofExcept_eq_ok_iff.mp hkey
  unfold step
  cases hevent : call.event with
  | cleanup =>
      rw [hevent] at hrest
      obtain ⟨u, p, hremove, hend⟩ := bind_eq_ok_iff.mp hrest
      cases hend
      obtain ⟨n', hremoved, heq⟩ :=
        ((PolicyMemory.store.related_onPart_snd s).remove call.name).of_ok rfl
          (mapError_eq_ok_iff.mp hremove)
      cases heq
      exact h.remove_ok hremoved
  | apply =>
      rw [hevent] at hrest
      obtain ⟨u, p, hsync, hend⟩ := bind_eq_ok_iff.mp hrest
      cases hend
      obtain ⟨-, -, hensure⟩ := Services.syncUser_withPolicies_eq_ok_iff.mp hsync
      have hrun' : (Sharder.inMemory settings.shard).ensure call.name (sanitize call.name) m =
          .ok () n := hensure
      rw [h.ensure_atLeastOne] at hrun'
      exact h.of_ensure_ok (Nat.le_max_left 1 _) hrun'

/-! ## All events -/

/-- Whether a name has been applied and not been cleaned up since. -/
def Kept (calls : List UserCall) (user : String) : Prop :=
  ∃ before call after, calls = before ++ call :: after ∧ call.event = .apply ∧ call.name = user ∧
    ∀ other ∈ after, other.name = user → other.event = .apply

/-- Whether a resource that is left has a name now: the last event of the resource has applied it
with this name. -/
def Live (calls : List UserCall) (user : String) : Prop :=
  ∃ before call after, calls = before ++ call :: after ∧ call.event = .apply ∧ call.name = user ∧
    ∀ other ∈ after, other.key ≠ call.key

theorem exists_split_cons_iff {P : UserCall → List UserCall → Prop} {call : UserCall}
    {rest : List UserCall} :
    (∃ before c after, call :: rest = before ++ c :: after ∧ P c after) ↔
      P call rest ∨ ∃ before c after, rest = before ++ c :: after ∧ P c after := by
  constructor
  · rintro ⟨before, c, after, hsplit, hP⟩
    cases before with
    | nil =>
        cases hsplit
        exact .inl hP
    | cons first before =>
        cases hsplit
        exact .inr ⟨before, c, after, rfl, hP⟩
  · rintro (hP | ⟨before, c, after, rfl, hP⟩)
    · exact ⟨[], call, rest, rfl, hP⟩
    · exact ⟨call :: before, c, after, rfl, hP⟩

theorem kept_cons_iff {call : UserCall} {rest : List UserCall} {user : String} :
    Kept (call :: rest) user ↔ (call.event = .apply ∧ call.name = user ∧
      ∀ other ∈ rest, other.name = user → other.event = .apply) ∨ Kept rest user :=
  exists_split_cons_iff

/-- As long as resources keep their names, each for itself, the names that have been applied and not
been cleaned up are those of the resources that are left. -/
theorem kept_iff_live {calls : List UserCall} {user : String}
    (h : ∀ call ∈ calls, ∀ other ∈ calls, other.name = call.name ↔ other.key = call.key) :
    Kept calls user ↔ Live calls user := by
  induction calls with
  | nil => simp [Kept, Live]
  | cons call rest ih =>
      have hrest := ih fun call hcall other hother =>
        h call (List.mem_cons_of_mem _ hcall) other (List.mem_cons_of_mem _ hother)
      have hcall : ∀ other ∈ rest, other.name = call.name ↔ other.key = call.key :=
        fun other hother => h call (List.mem_cons_self ..) other (List.mem_cons_of_mem _ hother)
      rw [kept_cons_iff, Live, exists_split_cons_iff, ← Live, ← hrest]
      constructor
      · rintro (⟨hevent, rfl, hlater⟩ | hlater)
        · by_cases hagain : ∃ other ∈ rest, other.key = call.key
          -- A later event of the resource is one of the same name, and stands in for this one.
          · obtain ⟨other, hother, hkey⟩ := hagain
            have hname := (hcall other hother).mpr hkey
            obtain ⟨before, after, rfl⟩ := List.append_of_mem hother
            exact .inr ⟨before, other, after, rfl, hlater other hother hname, hname,
              fun later hmem => hlater later (by simp [hmem])⟩
          · exact .inl ⟨hevent, rfl, fun other hother hkey => hagain ⟨other, hother, hkey⟩⟩
        · exact .inr hlater
      · rintro (⟨hevent, rfl, hlater⟩ | hlater)
        · exact .inl ⟨hevent, rfl, fun other hother hname =>
            absurd ((hcall other hother).mp hname) (hlater other hother)⟩
        · exact .inr hlater

/-- The names with a statement are those that were there and have not been cleaned up, and those
that have been applied and not been cleaned up since. -/
theorem mem_foldl_step_iff {calls : List UserCall} {users : NameMap String} {user : String} :
    user ∈ calls.foldl step users ↔ Kept calls user ∨
      (user ∈ users ∧ ∀ call ∈ calls, call.name = user → call.event = .apply) := by
  induction calls generalizing users with
  | nil => simp [Kept]
  | cons call rest ih =>
      rw [List.foldl_cons, ih, kept_cons_iff, List.forall_mem_cons, step]
      cases call.event with
      | apply =>
          rw [Std.ExtTreeMap.mem_insert, Std.LawfulEqCmp.compare_eq_iff_eq]
          grind
      | cleanup =>
          have hne : ¬compare call.name user = .eq ↔ call.name ≠ user :=
            not_congr Std.LawfulEqCmp.compare_eq_iff_eq
          rw [Std.ExtTreeMap.mem_erase]
          grind

/-- Names stand for the roles that they come to. -/
theorem role_of_foldl_step {calls : List UserCall} {users : NameMap String}
    (h : ∀ user role, users[user]? = some role → role = sanitize user) {user role : String}
    (hrole : (calls.foldl step users)[user]? = some role) : role = sanitize user := by
  induction calls generalizing users with
  | nil => exact h user role hrole
  | cons call rest ih =>
      refine ih ?_ hrole
      intro user role hstep
      unfold step at hstep
      cases hevent : call.event with
      | apply =>
          rw [hevent] at hstep
          dsimp only at hstep
          rw [Std.ExtTreeMap.getElem?_insert] at hstep
          split at hstep
          next heq =>
            cases hstep
            rw [Std.LawfulEqCmp.compare_eq_iff_eq.mp heq]
          next => exact h user role hstep
      | cleanup =>
          rw [hevent] at hstep
          dsimp only at hstep
          rw [Std.ExtTreeMap.getElem?_erase] at hstep
          split at hstep
          next => cases hstep
          next => exact h user role hstep

/-- Events that succeed keep the shard in step with the names. -/
theorem run_mirrors {settings : Settings} {around : Surroundings σ} {calls : List UserCall}
    {users : NameMap String} {s t : σ} {m n : PolicyMemory}
    (h : Mirrors settings.shard.atLeastOne users m)
    (hrun : Program.sequence (calls.map (run settings around.withPolicies)) (s, m) =
      .ok () (t, n)) :
    Mirrors settings.shard.atLeastOne (calls.foldl step users) n := by
  induction calls generalizing users s m with
  | nil =>
      cases hrun
      exact h
  | cons call rest ih =>
      rw [List.map_cons, Program.sequence] at hrun
      obtain ⟨u, ⟨s', m'⟩, hcall, hrest⟩ := bind_eq_ok_iff.mp hrun
      exact ih (run_ok h hcall) hrest

end UserCall

/-! ## The names that the shard holds -/

/-- Whether a store holds exactly one statement for each of some names, the one that lets the user
connect as the role that its name comes to, and no statement for anyone else. -/
def ShardSettings.HoldsExactly (s : ShardSettings) (names : String → Prop) (m : PolicyMemory) :
    Prop :=
  (∀ user, names user → (statementsOf m.policies).countP (·.isFor (userIdOf user)) = 1 ∧
    s.statement user (sanitize user) ∈ statementsOf m.policies) ∧
  ∀ st ∈ statementsOf m.policies, ∃ user, names user ∧ st.isFor (userIdOf user) = true

/-- A store that holds the statements of some users holds exactly those of some names when the names
are those of the users. -/
theorem Mirrors.holdsExactly_iff {s : ShardSettings} {users : NameMap String} {m : PolicyMemory}
    (h : Mirrors s.atLeastOne users m)
    (hroles : ∀ user role, users[user]? = some role → role = sanitize user)
    {names : String → Prop} :
    s.HoldsExactly names m ↔ ∀ user, user ∈ users ↔ names user := by
  have hperm : (statementsOf m.policies).Perm (s.statementsFor users) := h.statements
  constructor
  · rintro ⟨hone, honly⟩ user
    constructor
    · intro huser
      obtain ⟨role, hrole⟩ := Option.isSome_iff_exists.mp
        (Std.ExtTreeMap.mem_iff_isSome_getElem?.mp huser)
      obtain ⟨other, hother, hfor⟩ := honly (s.statement user role)
        (hperm.mem_iff.mpr ((mem_statementsFor s).mpr ⟨user, role, hrole, rfl⟩))
      rw [isFor_statement, decide_eq_true_eq] at hfor
      rwa [hfor]
    · intro hname
      by_contra huser
      have hnone : users[user]? = none := Std.ExtTreeMap.getElem?_eq_none huser
      have hcount := (hone user hname).1
      rw [hperm.countP_eq, free_iff_countP.mp (free_statementsFor s hnone)] at hcount
      cases hcount
  · intro hnames
    constructor
    · intro user hname
      obtain ⟨role, hrole⟩ := Option.isSome_iff_exists.mp
        (Std.ExtTreeMap.mem_iff_isSome_getElem?.mp ((hnames user).mpr hname))
      obtain rfl := hroles user role hrole
      exact ⟨by rw [hperm.countP_eq, countP_statementsFor s hrole],
        hperm.mem_iff.mpr ((mem_statementsFor s).mpr ⟨user, _, hrole, rfl⟩)⟩
    · intro st hst
      obtain ⟨user, role, hrole, rfl⟩ := (mem_statementsFor s).mp (hperm.mem_iff.mp hst)
      have huser : user ∈ users := by
        rw [Std.ExtTreeMap.mem_iff_isSome_getElem?, hrole]
        rfl
      exact ⟨user, (hnames user).mp huser, by rw [isFor_statement, decide_eq_true_eq]⟩

namespace UserCall

/-- When events have worked on an empty shard and all have succeeded, it holds the statements of the
names that have been applied and not been cleaned up since.  It holds those of the resources that
are left, and no other, exactly when these names are the ones that the resources left have now. -/
theorem shard_mirrors_live_iff (settings : Settings) (around : Surroundings σ)
    (calls : List UserCall) (s t : σ) (m : PolicyMemory)
    (hrun : Program.sequence (calls.map (run settings around.withPolicies)) (s, {}) =
      .ok () (t, m)) :
    settings.shard.HoldsExactly (Kept calls) m ∧
      (settings.shard.HoldsExactly (Live calls) m ↔
        ∀ user, Kept calls user ↔ Live calls user) := by
  have hempty : Mirrors settings.shard.atLeastOne ∅ {} := ⟨.refl _, fun arn p hp => by simp at hp⟩
  have hmirrors := run_mirrors hempty hrun
  have hroles : ∀ user role, (calls.foldl step ∅)[user]? = some role → role = sanitize user :=
    fun user role => role_of_foldl_step fun user role hrole => by simp at hrole
  have hkept : ∀ user, user ∈ calls.foldl step ∅ ↔ Kept calls user := fun user => by
    rw [mem_foldl_step_iff]
    simp
  refine ⟨(hmirrors.holdsExactly_iff hroles).mpr hkept, ?_⟩
  rw [hmirrors.holdsExactly_iff hroles]
  exact forall_congr' fun user => iff_congr (hkept user) Iff.rfl

end UserCall

/-! ## Resources and their names -/

/-- A policy store that offers nothing. -/
def PolicyStore.absent : PolicyStore σ where
  list := fun _ => throw (.misuse .noPolicy)
  create := fun _ _ _ => throw (.misuse .noPolicy)
  createVersion := fun _ _ => throw (.misuse .noPolicy)
  deleteVersion := fun _ _ => throw (.misuse .noPolicy)
  attachedRoles := fun _ => throw (.misuse .noPolicy)
  attach := fun _ _ => throw (.misuse .noPolicy)
  detach := fun _ _ => throw (.misuse .noPolicy)
  delete := fun _ => throw (.misuse .noPolicy)

/-- A cluster and nothing else. -/
def clusterAlone : Surroundings Cluster where
  server := Cluster.server
  resolver := { read := fun kind space key => throw (.notFound kind space key.name) }
  hostCredentials := fun _ _ => pure none
  inventory := fun _ => pure []
  policies := .absent
  kube := { send := fun _ => throw .undecodable }

namespace UserCall

/-- An event of a resource of the shop, which asks for no database. -/
def ofShop (event : UserEvent) (resource user : String) : UserCall where
  now := writeCall.now
  event := event
  resource := { metadata := { name := some resource, space := some "shop" }
                spec := { name := user } }

/-- Two users, one of whom goes. -/
def separateNames : List UserCall :=
  [ofShop .apply "a" "alice.doe", ofShop .apply "b" "bob", ofShop .cleanup "b" "bob",
    ofShop .apply "a" "alice.doe"]

/-- The shard mirrors two users who have names of their own. -/
theorem separateNames_mirrored :
    ∃ t m, Program.sequence (separateNames.map (run {} clusterAlone.withPolicies)) ({}, {}) =
        .ok () (t, m) ∧
      ({} : Settings).shard.HoldsExactly (Live separateNames) m := by
  have hrun := Program.ok_of_succeeds
    (p := Program.sequence (separateNames.map (run {} clusterAlone.withPolicies))) (s := ({}, {}))
    (by decide +kernel)
  have hown : ∀ call ∈ separateNames, ∀ other ∈ separateNames,
      other.name = call.name ↔ other.key = call.key := by
    simp [separateNames, ofShop, name, key, ObjectMeta.key]
  exact ⟨_, _, hrun, (shard_mirrors_live_iff {} clusterAlone separateNames {} _ _ hrun).2.mpr
    fun user => kept_iff_live hown⟩

/-- Two resources of one name, one of which goes. -/
def sharedName : List UserCall :=
  [ofShop .apply "a" "alice", ofShop .apply "b" "alice", ofShop .cleanup "b" "alice"]

/-- The resource that is left has no statement any more. -/
theorem sharedName_not_mirrored :
    ∃ t m, Program.sequence (sharedName.map (run {} clusterAlone.withPolicies)) ({}, {}) =
        .ok () (t, m) ∧
      ¬({} : Settings).shard.HoldsExactly (Live sharedName) m := by
  have hrun := Program.ok_of_succeeds
    (p := Program.sequence (sharedName.map (run {} clusterAlone.withPolicies))) (s := ({}, {}))
    (by decide +kernel)
  refine ⟨_, _, hrun, fun hholds => ?_⟩
  have hlive : Live sharedName "alice" :=
    ⟨[], ofShop .apply "a" "alice", [ofShop .apply "b" "alice", ofShop .cleanup "b" "alice"], rfl,
      rfl, rfl, by simp [ofShop, key, ObjectMeta.key]⟩
  have hone := (hholds.1 "alice" hlive).1
  revert hone
  decide +kernel

end UserCall

end PgSteward
