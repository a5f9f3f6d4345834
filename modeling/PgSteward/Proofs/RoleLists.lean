import PgSteward.Proofs.StatementReading

/-!
# Grants of several roles

A list of names in a statement is its words with spaces between them, and every name but the last
has a comma at its end (`toList_listText`).  A server finds the same names in it again
(`namesOf_listWords`).

Only the last name of a list stands between spaces alone.  So a grant of several roles is read as
what it is unless the last one is named like a word of the grant (`read_grantList`).
-/

namespace PgSteward

namespace Text

/-- Words in a row are put together with a space between the parts. -/
theorem spaced_append {front back : List (List Char)} (hfront : front ≠ []) (hback : back ≠ []) :
    spaced (front ++ back) = spaced front ++ ' ' :: spaced back := by
  induction front with
  | nil => exact absurd rfl hfront
  | cons w rest ih =>
      cases rest with
      | nil =>
          obtain ⟨v, vs, rfl⟩ := List.exists_cons_of_ne_nil hback
          rfl
      | cons v more =>
          have hmore := ih (List.cons_ne_nil _ _)
          rw [List.cons_append] at hmore
          rw [List.cons_append, List.cons_append, spaced, hmore, spaced, List.append_assoc]
          rfl

/-- The first piece ends at the first mark. -/
theorem pieces_append {mark : Char} {front : List Char} (h : mark ∉ front) (back : List Char) :
    pieces mark (front ++ mark :: back) = front :: pieces mark back := by
  induction front with
  | nil => rw [List.nil_append, pieces, if_pos rfl]
  | cons c cs ih =>
      rw [List.mem_cons, not_or] at h
      rw [List.cons_append, pieces, if_neg (Ne.symm h.1), ih h.2]

/-- A word that stands nowhere before between spaces is cut out. -/
theorem cutAtText_spaced_append {key : List Char} {front back : List (List Char)}
    (hkey : IsWord key) (hwords : ∀ w ∈ front, IsWord w) (hfront : front ≠ []) (hback : back ≠ [])
    (h : key ∉ front.tail) :
    cutAtText (wordMark key) (spaced (front ++ key :: back)) =
      some (spaced front, spaced back) := by
  induction front with
  | nil => exact absurd rfl hfront
  | cons w rest ih =>
      obtain ⟨hw, hrest⟩ := List.forall_mem_cons.mp hwords
      cases rest with
      | nil => exact (cutAtText_spaced_cons hkey hw hkey hback).trans (if_pos rfl)
      | cons v more =>
          rw [List.tail_cons, List.mem_cons, not_or] at h
          have hmore : more ++ key :: back ≠ [] := by simp
          rw [List.cons_append, List.cons_append,
            cutAtText_spaced_cons hkey hw (hrest v (List.mem_cons_self ..)) hmore,
            if_neg (Ne.symm h.1), ← List.cons_append, ih hrest (List.cons_ne_nil _ _) h.2]
          rfl

end Text

namespace Statement

open Text

/-- The words of a list of names. -/
def listWords : List Identifier → List (List Char)
  | [] => []
  | [role] => [role.name.toList]
  | role :: next :: rest => (role.name.toList ++ [',']) :: listWords (next :: rest)

theorem listWords_ne_nil {roles : List Identifier} (h : roles ≠ []) : listWords roles ≠ [] := by
  match roles, h with
  | [_], _ => exact List.cons_ne_nil _ _
  | _ :: _ :: _, _ => exact List.cons_ne_nil _ _

theorem tail_listWords (roles : List Identifier) :
    (listWords roles).tail = listWords roles.tail := by
  match roles with
  | [] => rfl
  | [_] => rfl
  | _ :: _ :: _ => rfl

theorem isWord_of_mem_listWords {roles : List Identifier} :
    ∀ w ∈ listWords roles, IsWord w := by
  induction roles with
  | nil => exact fun w hw => absurd hw List.not_mem_nil
  | cons role rest ih =>
      cases rest with
      | nil => exact List.forall_mem_singleton.mpr role.isWord
      | cons next more =>
          refine List.forall_mem_cons.mpr ⟨⟨by simp, ?_⟩, ih⟩
          exact List.forall_mem_append.mpr ⟨role.isWord.2, List.forall_mem_singleton.mpr (by decide)⟩

theorem toList_listText (roles : List Identifier) :
    (listText roles).toList = spaced (listWords roles) := by
  unfold listText
  induction roles with
  | nil => rfl
  | cons role rest ih =>
      cases rest with
      | nil => simp [listWords, spaced]
      | cons next more =>
          rw [List.map_cons, List.map_cons, String.intercalate_cons_cons, ← List.map_cons,
            String.toList_append, String.toList_append, ih]
          obtain ⟨w, ws, hw⟩ := List.exists_cons_of_ne_nil
            (listWords_ne_nil (List.cons_ne_nil next more))
          simp [listWords, hw, spaced]

/-- Of the words of a list only the last can be a word without a comma. -/
theorem mem_listWords_iff {roles : List Identifier} {key : String} (hkey : ',' ∉ key.toList) :
    key.toList ∈ listWords roles ↔ (roles.map (·.name)).getLast? = some key := by
  induction roles with
  | nil => simp [listWords]
  | cons role rest ih =>
      cases rest with
      | nil => simp [listWords, String.toList_inj, eq_comm]
      | cons next more =>
          have hne : key.toList ≠ role.name.toList ++ [','] := by
            intro h
            rw [h] at hkey
            simp at hkey
          rw [listWords, List.mem_cons, or_iff_right hne, ih]
          simp

/-- A blank in front of a list makes no difference. -/
theorem namesOf_space (cs : List Char) : Command.namesOf (' ' :: cs) = Command.namesOf cs := by
  obtain ⟨p, ps, hp⟩ := List.exists_cons_of_ne_nil (pieces_ne_nil ',' cs)
  have htrim : trim (' ' :: p) = trim p := by
    rw [trim, trim, trimLeft, trimLeft, List.dropWhile_cons_of_pos isBlank_space]
  rw [Command.namesOf, Command.namesOf, pieces, if_neg (by decide), hp]
  simp [htrim]

/-- The names of a list are found in it. -/
theorem namesOf_listWords {roles : List Identifier} (h : roles ≠ []) :
    Command.namesOf (spaced (listWords roles)) = roles.map (·.name) := by
  induction roles with
  | nil => exact absurd rfl h
  | cons role rest ih =>
      cases rest with
      | nil => exact namesOf_name role
      | cons next more =>
          have hcomma : ',' ∉ role.name.toList := fun hmem =>
            absurd rfl (ne_comma_of_isNameChar (Identifier.isNameChar_of_mem hmem))
          obtain ⟨w, ws, hw⟩ := List.exists_cons_of_ne_nil
            (listWords_ne_nil (List.cons_ne_nil next more))
          have htext : spaced (listWords (role :: next :: more)) =
              role.name.toList ++ ',' :: ' ' :: spaced (listWords (next :: more)) := by
            simp [listWords, hw, spaced]
          have hnames := ih (List.cons_ne_nil _ _)
          rw [← namesOf_space] at hnames
          rw [htext, Command.namesOf, pieces_append hcomma, List.map_cons,
            trim_of_isWord role.isWord, String.ofList_toList, List.map_cons, ← hnames]
          rfl

/-- Whether a list of roles stands in a grant without being mistaken for a part of it.  Its last
name is neither the word in front of an object nor, unless it is alone, the word in front of the
member. -/
structure IsUnmistakable (roles : List String) : Prop where
  object : roles.getLast? ≠ some "ON"
  member : roles.tail.getLast? ≠ some "TO"

/-- The words of a grant. -/
def grantWords (roles : List Identifier) (member : Identifier) : List (List Char) :=
  "GRANT".toList :: (listWords roles ++ ["TO".toList, member.name.toList])

theorem isWord_of_mem_grantWords {roles : List Identifier} {member : Identifier} :
    ∀ w ∈ grantWords roles member, IsWord w :=
  List.forall_mem_cons.mpr ⟨by decide, List.forall_mem_append.mpr ⟨isWord_of_mem_listWords,
    List.forall_mem_cons.mpr ⟨by decide, List.forall_mem_singleton.mpr member.isWord⟩⟩⟩

theorem toList_grantRoles {roles : List Identifier} (hne : roles ≠ []) (member : Identifier) :
    (grantRoles roles member).text.toList = spaced (grantWords roles member) := by
  have hwords : listWords roles ++ ["TO".toList, member.name.toList] ≠ [] := by simp
  rw [grantWords, ← List.singleton_append, spaced_append (List.cons_ne_nil _ _) hwords,
    spaced_append (listWords_ne_nil hne) (List.cons_ne_nil _ _), ← toList_listText]
  unfold text
  simp [spaced, toString]

/-- Whether a word of a grant is the word in front of an object goes by the last role. -/
theorem occursIn_on_iff {roles : List Identifier} (hne : roles ≠ []) (member : Identifier) :
    occursIn Command.onMark (grantRoles roles member).text.toList = true ↔
      (roles.map (·.name)).getLast? = some "ON" := by
  have hinner : (grantWords roles member).tail.dropLast = listWords roles ++ ["TO".toList] := by
    rw [grantWords, List.tail_cons, List.dropLast_append_of_ne_nil (List.cons_ne_nil _ _)]
    rfl
  rw [toList_grantRoles hne, show Command.onMark = wordMark "ON".toList from rfl,
    occursIn_spaced_iff (by decide) isWord_of_mem_grantWords, hinner, List.mem_append,
    or_iff_left (by decide), mem_listWords_iff (by decide)]

/-- The roles and the member of a grant are found in its text. -/
theorem readGrant_list {roles : List Identifier} (hne : roles ≠ [])
    (hto : (roles.map (·.name)).tail.getLast? ≠ some "TO") (member : Identifier) :
    Command.readGrant (grantRoles roles member).text =
      .grantRoles (roles.map (·.name)) member.name := by
  have hdrop : dropBytes? Command.grantBytes (grantRoles roles member).text.toList =
      some (spaced (listWords roles ++ ["TO".toList, member.name.toList])) := by
    have hbytes : ∀ c ∈ "GRANT ".toList, c.utf8Size = 1 :=
      @of_decide_eq_true _ (List.decidableBAll _ _) rfl
    have hrest : listWords roles ++ ["TO".toList, member.name.toList] ≠ [] := by simp
    rw [toList_grantRoles hne, grantWords, ← List.singleton_append,
      spaced_append (List.cons_ne_nil _ _) hrest]
    exact dropBytes?_append hbytes _
  have hkey : "TO".toList ∉ (listWords roles).tail := by
    rw [tail_listWords, mem_listWords_iff (by decide), List.map_tail]
    exact hto
  have hmember : [member.name.toList] ≠ [] := List.cons_ne_nil _ _
  have hcut := cutAtText_spaced_append (by decide) isWord_of_mem_listWords
    (listWords_ne_nil hne) hmember hkey
  unfold Command.readGrant
  rw [hdrop, Option.bind_some, show Command.toMark = wordMark "TO".toList from rfl, hcut]
  show Command.grantRoles (Command.namesOf _) (String.ofList member.name.toList) = _
  rw [namesOf_listWords hne, String.ofList_toList]

/-- A grant of several roles is read as what it is, unless its last role is named like a word of the
grant. -/
theorem read_grantList {roles : List Identifier} (hne : roles ≠ [])
    (h : IsUnmistakable (roles.map (·.name))) (member : Identifier) :
    Command.read (grantRoles roles member).text =
      .grantRoles (roles.map (·.name)) member.name := by
  have hwords : wordsOf (grantRoles roles member).text =
      "GRANT" :: (listWords roles ++ ["TO".toList, member.name.toList]).map String.ofList := by
    rw [wordsOf, toList_grantRoles hne, words_spaced isWord_of_mem_grantWords]
    rfl
  unfold Command.read
  rw [hwords]
  show (if occursIn Command.onMark (grantRoles roles member).text.toList then Command.other
    else Command.readGrant (grantRoles roles member).text) = _
  rw [if_neg fun hon => h.object ((occursIn_on_iff hne member).mp hon), readGrant_list hne h.member]

/-- Whatever the roles of a grant are, it is not read as the end of a membership. -/
theorem read_grantRoles_ne (roles : List Identifier) (member : Identifier) (role other : String) :
    Command.read (grantRoles roles member).text ≠ .revokeRole role other := by
  have htext : (grantRoles roles member).text.toList =
      "GRANT".toList ++ ' ' :: ((listText roles).toList ++ (" TO " ++ member.name).toList) := by
    unfold text
    simp [toString]
  have hwords : ∃ rest, wordsOf (grantRoles roles member).text = "GRANT" :: rest := by
    rw [wordsOf, htext, words_append_space, words_of_isWord (by decide)]
    exact ⟨_, rfl⟩
  obtain ⟨rest, hrest⟩ := hwords
  unfold Command.read
  rw [hrest]
  show (if occursIn Command.onMark (grantRoles roles member).text.toList then Command.other
    else Command.readGrant (grantRoles roles member).text) ≠ _
  intro h
  split at h
  · cases h
  · unfold Command.readGrant at h
    split at h <;> cases h

end Statement

end PgSteward
