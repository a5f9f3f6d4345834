import PgSteward.NameMap

/-!
# Contents of name maps

The pairs of a map under a change of one name, which keeps what holds of all items
(`forall_insert`, `forall_erase`).  A map is a name with its item and the map without
the name, in some order (`toList_perm_of_getElem?`), and so is the map after an insertion
(`toList_insert_perm`).  A map to which pairs are added one after the other has the names of the
pairs and those that it had before (`mem_foldl_insert`).

Where the items are lists, two maps are put together name by name (`append`).
-/

namespace PgSteward.NameMap

variable {α β : Type}

theorem toList_nodup (m : NameMap α) : m.toList.Nodup := by
  refine m.distinct_keys_toList.imp ?_
  rintro a b h rfl
  exact h Std.ReflCmp.compare_self

theorem erase_eq_self {m : NameMap α} {k : String} (h : m[k]? = none) : m.erase k = m := by
  apply Std.ExtTreeMap.ext_getElem?
  intro j
  rw [Std.ExtTreeMap.getElem?_erase]
  by_cases hj : k = j
  · subst hj
    simp [h]
  · simp [hj]

theorem insert_eq_self {m : NameMap α} {k : String} {a : α} (h : m[k]? = some a) :
    m.insert k a = m := by
  apply Std.ExtTreeMap.ext_getElem?
  intro j
  rw [Std.ExtTreeMap.getElem?_insert]
  by_cases hj : k = j
  · subst hj
    simp [h]
  · simp [hj]

/-- Of two items of one name the later counts. -/
theorem insert_insert (m : NameMap α) (k : String) (a b : α) :
    (m.insert k a).insert k b = m.insert k b := by
  apply Std.ExtTreeMap.ext_getElem?
  intro j
  simp only [Std.ExtTreeMap.getElem?_insert]
  split <;> rfl

theorem getElem?_insert_of_ne (m : NameMap α) {k j : String} (h : j ≠ k) (a : α) :
    (m.insert k a)[j]? = m[j]? := by
  rw [Std.ExtTreeMap.getElem?_insert]
  simp [h.symm]

theorem insert_insert_comm (m : NameMap α) {k j : String} (h : k ≠ j) (a b : α) :
    (m.insert k a).insert j b = (m.insert j b).insert k a := by
  apply Std.ExtTreeMap.ext_getElem?
  intro i
  simp only [Std.ExtTreeMap.getElem?_insert, Std.LawfulEqCmp.compare_eq_iff_eq]
  by_cases hk : k = i
  · subst hk
    simp [h.symm]
  · simp [hk]

theorem erase_insert (m : NameMap α) (k : String) (a : α) : (m.insert k a).erase k = m.erase k := by
  apply Std.ExtTreeMap.ext_getElem?
  intro j
  by_cases hj : k = j
  · subst hj
    simp
  · simp [Std.ExtTreeMap.getElem?_erase, Std.ExtTreeMap.getElem?_insert, hj]

/-- What holds of all items and of another one holds of all after it has come in. -/
theorem forall_insert {P : α → Prop} {m : NameMap α} (h : ∀ (j : String) b, m[j]? = some b → P b)
    {a : α} (ha : P a) (k : String) : ∀ (j : String) b, (m.insert k a)[j]? = some b → P b := by
  intro j b hb
  by_cases hj : j = k
  · rw [hj, Std.ExtTreeMap.getElem?_insert_self] at hb
    exact Option.some.inj hb ▸ ha
  · rw [getElem?_insert_of_ne m hj] at hb
    exact h j b hb

/-- What holds of all items holds of those that are left. -/
theorem forall_erase {P : α → Prop} {m : NameMap α} (h : ∀ (j : String) b, m[j]? = some b → P b)
    (k : String) : ∀ (j : String) b, (m.erase k)[j]? = some b → P b := by
  intro j b hb
  rw [Std.ExtTreeMap.getElem?_erase] at hb
  split at hb
  next => cases hb
  next => exact h j b hb

/-- A map is a name with its item and the rest. -/
theorem toList_perm_of_getElem? {m : NameMap α} {k : String} {a : α} (h : m[k]? = some a) :
    m.toList.Perm ((k, a) :: (m.erase k).toList) := by
  have hfresh : (k, a) ∉ (m.erase k).toList := by
    rw [Std.ExtTreeMap.mem_toList_iff_getElem?_eq_some]
    simp
  rw [List.perm_ext_iff_of_nodup (toList_nodup m)
    (List.nodup_cons.mpr ⟨hfresh, toList_nodup _⟩)]
  rintro ⟨j, b⟩
  rw [List.mem_cons, Std.ExtTreeMap.mem_toList_iff_getElem?_eq_some,
    Std.ExtTreeMap.mem_toList_iff_getElem?_eq_some, Std.ExtTreeMap.getElem?_erase]
  by_cases hj : k = j
  · subst hj
    simp [h, eq_comm]
  · simp [hj, Ne.symm hj]

/-- An insertion puts a name with its item to the rest. -/
theorem toList_insert_perm (m : NameMap α) (k : String) (a : α) :
    (m.insert k a).toList.Perm ((k, a) :: (m.erase k).toList) := by
  have h := toList_perm_of_getElem? (m := m.insert k a) (k := k) (a := a) (by simp)
  rwa [erase_insert] at h

/-! ## Additions one after the other -/

/-- A map to which pairs are added has their names. -/
theorem mem_foldl_insert {key : β → String} {value : NameMap α → β → α} {l : List β}
    {m : NameMap α} {name : String} :
    name ∈ l.foldl (fun m x => m.insert (key x) (value m x)) m ↔
      name ∈ m ∨ ∃ x ∈ l, key x = name := by
  induction l generalizing m with
  | nil => simp
  | cons x rest ih =>
      rw [List.foldl_cons, ih, Std.ExtTreeMap.mem_insert, Std.LawfulEqCmp.compare_eq_iff_eq]
      constructor
      · rintro ((hx | hm) | ⟨y, hy, hkey⟩)
        · exact .inr ⟨x, List.mem_cons_self .., hx⟩
        · exact .inl hm
        · exact .inr ⟨y, List.mem_cons_of_mem _ hy, hkey⟩
      · rintro (hm | ⟨y, hy, hkey⟩)
        · exact .inl (.inr hm)
        · rcases List.mem_cons.mp hy with rfl | hy
          · exact .inl (.inl hkey)
          · exact .inr ⟨y, hy, hkey⟩

/-- A name that no added pair has keeps what it stands for. -/
theorem getElem?_foldl_insert_of_ne {key : β → String} {value : NameMap α → β → α} {l : List β}
    {m : NameMap α} {name : String} (h : ∀ x ∈ l, key x ≠ name) :
    (l.foldl (fun m x => m.insert (key x) (value m x)) m)[name]? = m[name]? := by
  induction l generalizing m with
  | nil => rfl
  | cons x rest ih =>
      rw [List.foldl_cons, ih fun y hy => h y (List.mem_cons_of_mem _ hy),
        Std.ExtTreeMap.getElem?_insert, if_neg]
      rw [Std.LawfulEqCmp.compare_eq_iff_eq]
      exact h x (List.mem_cons_self ..)

/-- A name that one added pair has stands for the value of the pair. -/
theorem getElem?_foldl_insert_of_mem {key : β → String} {value : β → α} {l : List β}
    {m : NameMap α} {x : β} (hx : x ∈ l) (h : ∀ y ∈ l, key y = key x → y = x) :
    (l.foldl (fun m x => m.insert (key x) (value x)) m)[key x]? = some (value x) := by
  induction l generalizing m with
  | nil => cases hx
  | cons y rest ih =>
      rw [List.foldl_cons]
      by_cases hrest : x ∈ rest
      · exact ih hrest fun z hz => h z (List.mem_cons_of_mem _ hz)
      · have hxy : x = y := (List.mem_cons.mp hx).resolve_right hrest
        have hne : ∀ z ∈ rest, key z ≠ key x := fun z hz hkey => by
          rw [h z (List.mem_cons_of_mem _ hz) hkey] at hz
          exact hrest hz
        rw [getElem?_foldl_insert_of_ne hne, hxy, Std.ExtTreeMap.getElem?_insert_self]

/-- The list of a name to which items are pushed holds those that belong to the name at its end. -/
theorem getD_foldl_push {key : α → String} {l : List α} {m : NameMap (List α)} {name : String} :
    (l.foldl (fun m a => push m (key a) a) m).getD name [] =
      m.getD name [] ++ l.filter fun a => key a = name := by
  induction l generalizing m with
  | nil => simp
  | cons a rest ih =>
      rw [List.foldl_cons, ih, getD_push]
      by_cases h : key a = name
      · simp [h]
      · simp [h]

/-- A map of pairs that all stand for the default has no other items. -/
theorem getD_ofPairs_of_default {pairs : List (String × α)} {name : String} {default : α}
    (h : ∀ p ∈ pairs, p.2 = default) : (ofPairs pairs).getD name default = default := by
  suffices hfold : ∀ m : NameMap α, m.getD name default = default →
      (pairs.foldl (fun m p => m.insert p.1 p.2) m).getD name default = default by
    exact hfold ∅ (by simp)
  induction pairs with
  | nil => exact fun m hm => hm
  | cons p rest ih =>
      intro m hm
      refine ih (fun q hq => h q (List.mem_cons_of_mem _ hq)) _ ?_
      rw [Std.ExtTreeMap.getD_insert, h p (List.mem_cons_self ..), hm, ite_self]

/-! ## Lists of names -/

/-- A map whose names have the lists of one map and then those of another. -/
def append (m n : NameMap (List α)) : NameMap (List α) :=
  n.toList.foldl (fun m p => m.insert p.1 (m.getD p.1 [] ++ p.2)) m

/-- Maps with the same names are equal if the names have the same lists. -/
theorem ext_getD {m n : NameMap (List α)} (hmem : ∀ name, name ∈ m ↔ name ∈ n)
    (h : ∀ name, m.getD name [] = n.getD name []) : m = n := by
  apply Std.ExtTreeMap.ext_getElem?
  intro name
  have hlist := h name
  rw [Std.ExtTreeMap.getD_eq_getD_getElem?, Std.ExtTreeMap.getD_eq_getD_getElem?] at hlist
  have hnames := hmem name
  rw [Std.ExtTreeMap.mem_iff_isSome_getElem?, Std.ExtTreeMap.mem_iff_isSome_getElem?] at hnames
  cases hm : m[name]? with
  | none =>
      cases hn : n[name]? with
      | none => rfl
      | some l => simp [hm, hn] at hnames
  | some l =>
      cases hn : n[name]? with
      | none => simp [hm, hn] at hnames
      | some l' => simpa [hm, hn] using hlist

/-- What a name has in a list of pairs put to a map. -/
theorem getD_foldl_append {l : List (String × List α)} {m : NameMap (List α)} {name : String} :
    (l.foldl (fun m p => m.insert p.1 (m.getD p.1 [] ++ p.2)) m).getD name [] =
      m.getD name [] ++ (l.filter fun p => p.1 = name).flatMap (·.2) := by
  induction l generalizing m with
  | nil => simp
  | cons p rest ih =>
      rw [List.foldl_cons, ih, Std.ExtTreeMap.getD_insert]
      by_cases h : p.1 = name
      · simp [h]
      · simp [h]

/-- The pairs of a map with one name. -/
theorem flatMap_toList_filter (m : NameMap (List α)) (name : String) :
    (m.toList.filter fun p => p.1 = name).flatMap (·.2) = m.getD name [] := by
  rw [Std.ExtTreeMap.getD_eq_getD_getElem?]
  cases hget : m[name]? with
  | none =>
      have hnone : m.toList.filter (fun p => p.1 = name) = [] := by
        rw [List.filter_eq_nil_iff]
        rintro ⟨other, l⟩ hmem hname
        obtain rfl : other = name := of_decide_eq_true hname
        rw [Std.ExtTreeMap.mem_toList_iff_getElem?_eq_some, hget] at hmem
        cases hmem
      rw [hnone]
      rfl
  | some l =>
      have hrest : (m.erase name).toList.filter (fun p => p.1 = name) = [] := by
        rw [List.filter_eq_nil_iff]
        rintro ⟨other, l⟩ hmem hname
        obtain rfl : other = name := of_decide_eq_true hname
        rw [Std.ExtTreeMap.mem_toList_iff_getElem?_eq_some] at hmem
        simp at hmem
      have hperm := (toList_perm_of_getElem? hget).filter fun p => p.1 = name
      rw [List.filter_cons_of_pos (by simp), hrest, List.perm_singleton] at hperm
      rw [hperm]
      simp

theorem getD_append (m n : NameMap (List α)) (name : String) :
    (append m n).getD name [] = m.getD name [] ++ n.getD name [] := by
  rw [append, getD_foldl_append, flatMap_toList_filter]

theorem mem_append {m n : NameMap (List α)} {name : String} :
    name ∈ append m n ↔ name ∈ m ∨ name ∈ n := by
  refine Iff.trans mem_foldl_insert (or_congr_right ?_)
  constructor
  · rintro ⟨⟨other, l⟩, hmem, rfl⟩
    rw [Std.ExtTreeMap.mem_toList_iff_getElem?_eq_some] at hmem
    rw [Std.ExtTreeMap.mem_iff_isSome_getElem?, hmem]
    rfl
  · intro hname
    obtain ⟨l, hget⟩ := Option.isSome_iff_exists.mp
      (Std.ExtTreeMap.mem_iff_isSome_getElem?.mp hname)
    exact ⟨(name, l), Std.ExtTreeMap.mem_toList_iff_getElem?_eq_some.mpr hget, rfl⟩

/-- The names of a map to which items are pushed. -/
theorem mem_foldl_push {key : α → String} {l : List α} {m : NameMap (List α)} {name : String} :
    name ∈ l.foldl (fun m a => push m (key a) a) m ↔ name ∈ m ∨ ∃ a ∈ l, key a = name :=
  mem_foldl_insert

end PgSteward.NameMap

namespace PgSteward.NameSet

theorem insert_eq_self {s : NameSet} {name : String} (h : name ∈ s) : s.insert name = s := by
  apply Std.ExtTreeSet.ext_mem
  intro k
  rw [Std.ExtTreeSet.mem_insert, Std.LawfulEqCmp.compare_eq_iff_eq]
  constructor
  · rintro (rfl | hk)
    · exact h
    · exact hk
  · exact .inr

end PgSteward.NameSet
