import Mathlib.Data.List.Nodup
import PgSteward.Policy.Memory
import PgSteward.Proofs.PolicyNumbers

/-!
# Stored policies

A policy gets another document in two steps: a version is added, which becomes the default, and the
one that was the default is dropped (`replaced`).  This leaves it with the document and with as many
versions as before, when the names of its versions can be told apart (`length_replaced`).

`WellFormed` says of a policy that it may be given another document.  It is `Numbered` when its
versions have the numbers that they were given one after the other, and so it stays.
-/

namespace PgSteward

theorem versionName_injective {a b : Nat} (h : versionName a = versionName b) : a = b := by
  have hdigits : Text.decimal a = Text.decimal b := by
    have := congrArg String.toList h
    simp only [versionName, String.toList_ofList] at this
    exact (List.cons.inj this).2
  have := congrArg Text.natural? hdigits
  rw [Text.natural?_decimal, Text.natural?_decimal] at this
  exact Option.some.inj this

namespace StoredPolicy

variable {p : StoredPolicy}

/-! ## Attachments -/

/-- A policy without its attachments. -/
def detached (p : StoredPolicy) : StoredPolicy := { p with attached := ∅ }

@[simp] theorem detached_document (p : StoredPolicy) : p.detached.document = p.document := rfl

/-- A policy that is attached to more roles. -/
def attachedTo (p : StoredPolicy) (roles : List String) : StoredPolicy :=
  { p with attached := p.attached.insertMany roles }

@[simp] theorem attachedTo_document (p : StoredPolicy) (roles : List String) :
    (p.attachedTo roles).document = p.document := rfl

theorem mem_attachedTo {p : StoredPolicy} {roles : List String} {role : String} :
    role ∈ (p.attachedTo roles).attached ↔ role ∈ p.attached ∨ role ∈ roles := by
  rw [attachedTo, Std.ExtTreeSet.mem_insertMany_list, List.contains_iff_mem]

/-- Roles that a policy is attached to make no difference. -/
theorem attachedTo_filter (p : StoredPolicy) (roles : List String) :
    p.attachedTo (roles.filter fun role => !p.attached.toList.contains role) =
      p.attachedTo roles := by
  have h : (p.attachedTo (roles.filter fun role => !p.attached.toList.contains role)).attached =
      (p.attachedTo roles).attached := by
    apply Std.ExtTreeSet.ext_mem
    intro role
    rw [mem_attachedTo, mem_attachedTo, List.mem_filter]
    by_cases hrole : role ∈ p.attached
    · simp [hrole]
    · simp [hrole]
  rw [attachedTo, attachedTo, StoredPolicy.mk.injEq]
  exact ⟨rfl, rfl, rfl, rfl, h⟩

/-! ## Versions -/

/-- A policy with another document, in a version of its own that takes the place of the default. -/
def replaced (p : StoredPolicy) (document : PolicyDocument) : StoredPolicy :=
  (p.addVersion document).dropVersion p.defaultVersion

/-- A version that is added is the default, unless its name is taken. -/
theorem document_addVersion
    (h : versionName p.nextVersion ∉ p.versions.map (·.1)) (document : PolicyDocument) :
    (p.addVersion document).document = document := by
  have hnone : p.versions.find? (fun v => v.1 = versionName p.nextVersion) = none := by
    rw [List.find?_eq_none]
    intro v hv hnext
    rw [decide_eq_true_eq] at hnext
    exact h (hnext ▸ List.mem_map_of_mem hv)
  have hversions : (p.addVersion document).versions =
      p.versions ++ [(versionName p.nextVersion, document)] := rfl
  have hdefault : (p.addVersion document).defaultVersion = versionName p.nextVersion := rfl
  rw [StoredPolicy.document, hversions, hdefault, List.find?_append, hnone]
  simp

/-- A version that is not the default makes no difference to the document. -/
theorem document_dropVersion {versionId : String}
    (h : p.defaultVersion ≠ versionId) : (p.dropVersion versionId).document = p.document := by
  have hfind : (p.versions.filter fun v => v.1 ≠ versionId).find?
      (fun v => v.1 = p.defaultVersion) = p.versions.find? fun v => v.1 = p.defaultVersion := by
    rw [List.find?_filter]
    congr 1
    funext v
    by_cases hv : v.1 = p.defaultVersion
    · simp [hv, h]
    · simp [hv]
  have hversions : (p.dropVersion versionId).versions =
      p.versions.filter fun v => v.1 ≠ versionId := rfl
  have hdefault : (p.dropVersion versionId).defaultVersion = p.defaultVersion := rfl
  rw [StoredPolicy.document, hversions, hdefault, hfind]
  rfl

theorem nodup_addVersion (hdistinct : (p.versions.map (·.1)).Nodup)
    (hfresh : versionName p.nextVersion ∉ p.versions.map (·.1)) (document : PolicyDocument) :
    ((p.addVersion document).versions.map (·.1)).Nodup := by
  rw [addVersion, List.map_append, List.nodup_append]
  refine ⟨hdistinct, by simp, ?_⟩
  rintro versionId hold _ hnew rfl
  simp only [List.map_cons, List.map_nil, List.mem_singleton] at hnew
  exact hfresh (hnew ▸ hold)

theorem mem_addVersion {versionId : String} {document : PolicyDocument} :
    versionId ∈ (p.addVersion document).versions.map (·.1) ↔
      versionId ∈ p.versions.map (·.1) ∨ versionId = versionName p.nextVersion := by
  simp [addVersion]

theorem dropVersion_sublist (p : StoredPolicy) (versionId : String) :
    ((p.dropVersion versionId).versions.map (·.1)).Sublist (p.versions.map (·.1)) :=
  List.filter_sublist.map _

theorem mem_dropVersion {versionId id : String} :
    id ∈ (p.dropVersion versionId).versions.map (·.1) ↔
      id ∈ p.versions.map (·.1) ∧ id ≠ versionId := by
  simp only [dropVersion, List.mem_map, List.mem_filter, decide_eq_true_eq]
  constructor
  · rintro ⟨v, ⟨hv, hne⟩, rfl⟩
    exact ⟨⟨v, hv, rfl⟩, hne⟩
  · rintro ⟨⟨v, hv, rfl⟩, hne⟩
    exact ⟨v, ⟨hv, hne⟩, rfl⟩

/-- The versions of a name are those that are dropped. -/
theorem length_dropVersion (p : StoredPolicy) (versionId : String) :
    (p.dropVersion versionId).versions.length + (p.versions.map (·.1)).count versionId =
      p.versions.length := by
  rw [dropVersion]
  induction p.versions with
  | nil => rfl
  | cons v rest ih =>
      by_cases hv : v.1 = versionId
      · simp [hv] at ih ⊢
        omega
      · simp [hv] at ih ⊢
        omega

/-- A policy with another document has as many versions as before. -/
theorem length_replaced (hdistinct : (p.versions.map (·.1)).Nodup)
    (hdefault : p.defaultVersion ∈ p.versions.map (·.1))
    (hfresh : versionName p.nextVersion ∉ p.versions.map (·.1)) (document : PolicyDocument) :
    (p.replaced document).versions.length = p.versions.length := by
  have hcount : ((p.addVersion document).versions.map (·.1)).count p.defaultVersion = 1 :=
    List.count_eq_one_of_mem (nodup_addVersion hdistinct hfresh document)
      (mem_addVersion.mpr (.inl hdefault))
  have hlength := length_dropVersion (p.addVersion document) p.defaultVersion
  rw [hcount] at hlength
  have hadded : (p.addVersion document).versions.length = p.versions.length + 1 := by
    simp [addVersion]
  rw [replaced]
  omega

/-! ## Policies that may be given another document -/

/-- A policy whose versions can be told apart, and with room for the next one. -/
structure WellFormed (p : StoredPolicy) : Prop where
  /-- The versions have names of their own. -/
  distinct : (p.versions.map (·.1)).Nodup
  /-- The default is one of them. -/
  default : p.defaultVersion ∈ p.versions.map (·.1)
  /-- None of them has the name of the next one. -/
  fresh : versionName p.nextVersion ∉ p.versions.map (·.1)
  /-- There are fewer than there may be. -/
  room : p.versions.length < versionLimit

instance (p : StoredPolicy) : Decidable p.WellFormed :=
  decidable_of_iff ((p.versions.map (·.1)).Nodup ∧ p.defaultVersion ∈ p.versions.map (·.1) ∧
      versionName p.nextVersion ∉ p.versions.map (·.1) ∧ p.versions.length < versionLimit)
    ⟨fun h => ⟨h.1, h.2.1, h.2.2.1, h.2.2.2⟩, fun h => ⟨h.1, h.2, h.3, h.4⟩⟩

namespace WellFormed

/-- The next version is not the default yet. -/
theorem default_ne_next (h : p.WellFormed) : p.defaultVersion ≠ versionName p.nextVersion :=
  fun he => h.fresh (he ▸ h.default)

/-- A policy that has been given another document has it. -/
theorem replaced_document (h : p.WellFormed) (document : PolicyDocument) :
    (p.replaced document).document = document :=
  (document_dropVersion h.default_ne_next.symm).trans (document_addVersion h.fresh document)

/-- A policy that has been given another document may be given one more when the name of the version
after the next one is new as well. -/
theorem replaced (h : p.WellFormed)
    (hnext : versionName (p.nextVersion + 1) ∉ p.versions.map (·.1)) (document : PolicyDocument) :
    (p.replaced document).WellFormed where
  distinct := (nodup_addVersion h.distinct h.fresh document).sublist (dropVersion_sublist ..)
  default := mem_dropVersion.mpr ⟨mem_addVersion.mpr (.inr rfl), h.default_ne_next.symm⟩
  fresh := by
    intro hmem
    rcases mem_addVersion.mp (mem_dropVersion.mp hmem).1 with hold | hnew
    · exact hnext hold
    · exact absurd (versionName_injective hnew) (Nat.succ_ne_self _)
  room := by
    rw [length_replaced h.distinct h.default h.fresh]
    exact h.room

theorem attachedTo (h : p.WellFormed) (roles : List String) : (p.attachedTo roles).WellFormed :=
  ⟨h.distinct, h.default, h.fresh, h.room⟩

end WellFormed

/-! ## Policies whose versions are numbered -/

/-- Whether the versions of a policy are numbered, none of them with the number of the next one or a
later one. -/
structure Numbered (p : StoredPolicy) : Prop where
  /-- The versions have names of their own. -/
  distinct : (p.versions.map (·.1)).Nodup
  /-- The default is one of them. -/
  default : p.defaultVersion ∈ p.versions.map (·.1)
  /-- Each of them is older than the next one. -/
  older : ∀ versionId ∈ p.versions.map (·.1), ∃ n, n < p.nextVersion ∧ versionId = versionName n

namespace Numbered

/-- No version has a name that is still to be given. -/
theorem later_not_mem (h : p.Numbered) {n : Nat} (hn : p.nextVersion ≤ n) :
    versionName n ∉ p.versions.map (·.1) := by
  intro hmem
  obtain ⟨k, hlt, hname⟩ := h.older _ hmem
  exact absurd (versionName_injective hname) (Nat.ne_of_gt (Nat.lt_of_lt_of_le hlt hn))

theorem next_not_mem (h : p.Numbered) : versionName p.nextVersion ∉ p.versions.map (·.1) :=
  h.later_not_mem (Nat.le_refl _)

/-- A policy with room whose versions are numbered may be given another document. -/
theorem wellFormed (h : p.Numbered) (hroom : p.versions.length < versionLimit) : p.WellFormed :=
  ⟨h.distinct, h.default, h.next_not_mem, hroom⟩

theorem addVersion (h : p.Numbered) (document : PolicyDocument) :
    (p.addVersion document).Numbered where
  distinct := nodup_addVersion h.distinct h.next_not_mem document
  default := mem_addVersion.mpr (.inr rfl)
  older := by
    intro versionId hmem
    rcases mem_addVersion.mp hmem with hold | hnew
    · obtain ⟨n, hlt, hname⟩ := h.older _ hold
      exact ⟨n, Nat.lt_succ_of_lt hlt, hname⟩
    · exact ⟨p.nextVersion, Nat.lt_succ_self _, hnew⟩

theorem dropVersion {versionId : String} (h : p.Numbered)
    (hother : p.defaultVersion ≠ versionId) : (p.dropVersion versionId).Numbered where
  distinct := h.distinct.sublist (dropVersion_sublist ..)
  default := mem_dropVersion.mpr ⟨h.default, hother⟩
  older id hid := h.older id (mem_dropVersion.mp hid).1

theorem replaced (h : p.Numbered) (document : PolicyDocument) : (p.replaced document).Numbered :=
  (h.addVersion document).dropVersion fun he => h.next_not_mem (by
    rw [show versionName p.nextVersion = p.defaultVersion from he]
    exact h.default)

theorem of_detached (h : p.detached.Numbered) : p.Numbered := ⟨h.distinct, h.default, h.older⟩

/-- A statement more in the document of a version makes no difference to the names. -/
theorem pushInto (h : p.Numbered) (versionId : String) (s : PolicyStatement) :
    { p with versions := StoredPolicy.pushInto versionId s p.versions }.Numbered := by
  have hnames : (StoredPolicy.pushInto versionId s p.versions).map (·.1) = p.versions.map (·.1) := by
    induction p.versions with
    | nil => rfl
    | cons v rest ih =>
        rw [StoredPolicy.pushInto]
        split
        next => rfl
        next => rw [List.map_cons, ih, List.map_cons]
  exact ⟨hnames ▸ h.distinct, hnames ▸ h.default, hnames ▸ h.older⟩

end Numbered

theorem fresh_numbered (name : String) (document : PolicyDocument) :
    (StoredPolicy.fresh name document).Numbered where
  distinct := by simp [StoredPolicy.fresh]
  default := by simp [StoredPolicy.fresh]
  older := by
    intro versionId hmem
    simp only [StoredPolicy.fresh, List.map_cons, List.map_nil, List.mem_singleton] at hmem
    exact ⟨1, Nat.lt_succ_self _, hmem⟩

end StoredPolicy

end PgSteward
