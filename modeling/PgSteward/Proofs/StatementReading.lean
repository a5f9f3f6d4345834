import PgSteward.Postgres.Command
import PgSteward.Proofs.SpacedWords

/-!
# What statements come to

The text of a plain statement, which holds neither a password nor a list of names, is its words with
spaces between them (`Statement.toList_text`).  So a server reads out of the text what was meant:
there is one lemma for each kind of statement that changes a catalog, and `Statement.read_quiet` for
all others.  A grant of a role named `ON`, and the end of a membership in one, is taken for a grant
of privileges and changes nothing.
-/

namespace PgSteward

open Text

namespace TablePrivileges
/-- The words of the privileges. -/
def words : TablePrivileges → List String
  | .read => ["SELECT"]
  | .write => ["SELECT,", "INSERT,", "UPDATE,", "DELETE"]
  | .extendedWrite =>
      ["SELECT,", "INSERT,", "UPDATE,", "DELETE,", "TRUNCATE,", "REFERENCES,", "TRIGGER"]
end TablePrivileges

namespace Statement

/-- Whether every word of a statement is fixed or a name. -/
def IsPlain : Statement → Prop
  | .createRole _ _ password roles => password = none ∧ roles = []
  | .setPassword .. | .alterService .. => False
  | .grantRoles roles _ => roles.length = 1
  | _ => True

/-- The words of a plain statement. -/
def words : Statement → List String
  | .createRole role login _ _ =>
      ["CREATE", "ROLE", role.name, "WITH", if login then "LOGIN" else "NOLOGIN"]
  | .setPassword .. | .alterService .. => []
  | .grantRoles roles member => "GRANT" :: (roles.map (·.name) ++ ["TO", member.name])
  | .revokeRole role member => ["REVOKE", role.name, "FROM", member.name]
  | .createDatabase database => ["CREATE", "DATABASE", database.name]
  | .alterDatabaseOwner database owner =>
      ["ALTER", "DATABASE", database.name, "OWNER", "TO", owner.name]
  | .createSchema schema => ["CREATE", "SCHEMA", schema.name]
  | .revokeDatabase database =>
      ["REVOKE", "ALL", "ON", "DATABASE", database.name, "FROM", "PUBLIC"]
  | .revokeSchema => ["REVOKE", "ALL", "ON", "SCHEMA", "public", "FROM", "PUBLIC"]
  | .revokeTables =>
      ["REVOKE", "ALL", "ON", "ALL", "TABLES", "IN", "SCHEMA", "public", "FROM", "PUBLIC"]
  | .grantConnect database role =>
      ["GRANT", "CONNECT", "ON", "DATABASE", database.name, "TO", role.name]
  | .grantUsage schema role => ["GRANT", "USAGE", "ON", "SCHEMA", schema.name, "TO", role.name]
  | .grantTables privileges schema role =>
      "GRANT" :: (privileges.words ++
        ["ON", "ALL", "TABLES", "IN", "SCHEMA", schema.name, "TO", role.name])
  | .createExtension extension schema =>
      ["CREATE", "EXTENSION", "IF", "NOT", "EXISTS", extension.name, "WITH", "SCHEMA",
        schema.name]

/-- The text of a plain statement is its words with spaces between them. -/
theorem toList_text {st : Statement} (h : st.IsPlain) :
    st.text.toList = spaced (st.words.map String.toList) := by
  unfold text
  cases st with
  | createRole role login password roles =>
      obtain ⟨rfl, rfl⟩ := h
      cases login with
      | true => simp [words, spaced, passwordText, rolesText, toString]
      | false => simp [words, spaced, passwordText, rolesText, toString]
  | setPassword => exact h.elim
  | alterService => exact h.elim
  | grantRoles roles member =>
      obtain ⟨role, rfl⟩ := List.length_eq_one_iff.mp h
      simp [words, spaced, listText, toString]
  | grantTables privileges schema role =>
      cases privileges <;>
        simp [words, spaced, TablePrivileges.sql, TablePrivileges.words, toString]
  | _ => simp [words, spaced, toString]

theorem isWord_of_mem_words (st : Statement) : ∀ w ∈ st.words, IsWord w.toList := by
  cases st with
  | createRole role login password roles =>
      cases login <;> simp only [words, List.forall_mem_cons, role.isWord, true_and] <;> decide
  | grantTables privileges schema role =>
      cases privileges <;>
        simp only [words, TablePrivileges.words, List.cons_append, List.nil_append,
          List.forall_mem_cons, role.isWord, schema.isWord, true_and] <;> decide
  | grantRoles roles member =>
      intro w hw
      simp only [words, List.mem_cons, List.mem_append, List.mem_map, List.not_mem_nil,
        or_false] at hw
      rcases hw with rfl | ⟨role, -, rfl⟩ | rfl | rfl
      · decide
      · exact role.isWord
      · decide
      · exact member.isWord
  | _ =>
      simp only [words, List.forall_mem_cons, Identifier.isWord, true_and]
      decide

theorem isWord_of_mem_map_words (st : Statement) : ∀ w ∈ st.words.map String.toList, IsWord w := by
  intro w hw
  obtain ⟨s, hs, rfl⟩ := List.mem_map.mp hw
  exact isWord_of_mem_words st s hs

/-- A plain statement is taken apart into its words. -/
theorem wordsOf_text {st : Statement} (h : st.IsPlain) : wordsOf st.text = st.words := by
  rw [wordsOf, toList_text h, words_spaced st.isWord_of_mem_map_words, List.map_map,
    show String.ofList ∘ String.toList = id from funext fun s => String.ofList_toList]
  exact List.map_id _

/-- Plain statements with one text have the same words. -/
theorem words_eq_of_text_eq {st st' : Statement} (h : st.IsPlain) (h' : st'.IsPlain)
    (htext : st.text = st'.text) : st.words = st'.words := by
  rw [← wordsOf_text h, htext, wordsOf_text h']

/-- A word occurs in a plain statement exactly when it is one of the inner words. -/
theorem occursIn_text_iff {st : Statement} (h : st.IsPlain) {key : String}
    (hkey : IsWord key.toList) :
    occursIn (wordMark key.toList) st.text.toList = true ↔ key ∈ st.words.tail.dropLast := by
  rw [toList_text h, occursIn_spaced_iff hkey st.isWord_of_mem_map_words, ← List.map_tail,
    ← List.map_dropLast]
  constructor
  · intro hmem
    obtain ⟨w, hw, heq⟩ := List.mem_map.mp hmem
    rwa [← String.toList_inj.mp heq]
  · intro hw
    exact List.mem_map.mpr ⟨key, hw, rfl⟩

/-! ## Statements that change what a catalog knows -/

theorem read_createDatabase (database : Identifier) :
    Command.read (createDatabase database).text = .createDatabase database.name := by
  unfold Command.read
  rw [wordsOf_text (show IsPlain (createDatabase database) from trivial)]
  rfl

theorem read_alterDatabaseOwner (database owner : Identifier) :
    Command.read (alterDatabaseOwner database owner).text =
      .alterDatabaseOwner database.name owner.name := by
  unfold Command.read
  rw [wordsOf_text (show IsPlain (alterDatabaseOwner database owner) from trivial)]
  rfl

theorem read_createSchema (schema : Identifier) :
    Command.read (createSchema schema).text = .createSchema schema.name := by
  unfold Command.read
  rw [wordsOf_text (show IsPlain (createSchema schema) from trivial)]
  rfl

theorem read_createExtension (extension schema : Identifier) :
    Command.read (createExtension extension schema).text = .createExtension extension.name := by
  unfold Command.read
  rw [wordsOf_text (show IsPlain (createExtension extension schema) from trivial)]
  rfl

/-- The end of a membership is read as what it is, unless the role is named like the word in front
of an object. -/
theorem read_revokeRole (role member : Identifier) :
    Command.read (revokeRole role member).text =
      if role.name = "ON" then .other else .revokeRole role.name member.name := by
  have hplain : IsPlain (revokeRole role member) := trivial
  have hon := occursIn_text_iff hplain (show IsWord "ON".toList by decide)
  unfold Command.read
  rw [wordsOf_text hplain]
  show (if occursIn (wordMark "ON".toList) (revokeRole role member).text.toList then Command.other
    else .revokeRole role.name member.name) = _
  by_cases h : role.name = "ON"
  · rw [if_pos h, if_pos (hon.mpr (by simp [words, h]))]
  · rw [if_neg h, if_neg fun hc => absurd (hon.mp hc) (by simp [words, Ne.symm h])]

/-- Characters of one byte each are dropped by their number. -/
theorem dropBytes?_append {front : List Char} (h : ∀ c ∈ front, c.utf8Size = 1)
    (back : List Char) :
    dropBytes? front.length (front ++ back) = some back := by
  induction front with
  | nil => rw [List.length_nil, List.nil_append, dropBytes?]
  | cons c cs ih =>
      have hc := h c (List.mem_cons_self ..)
      rw [List.length_cons, List.cons_append, dropBytes?, if_pos (by omega), hc,
        Nat.add_sub_cancel, ih fun d hd => h d (List.mem_cons_of_mem _ hd)]

/-- The name of an identifier is a list of one name. -/
theorem namesOf_name (role : Identifier) : Command.namesOf role.name.toList = [role.name] := by
  have hcomma : ',' ∉ role.name.toList := fun h =>
    absurd rfl (ne_comma_of_isNameChar (Identifier.isNameChar_of_mem h))
  rw [Command.namesOf, pieces_of_not_mem hcomma, List.map_singleton, trim_of_isWord role.isWord,
    String.ofList_toList]

theorem readGrant_text (role member : Identifier) :
    Command.readGrant (grantRoles [role] member).text = .grantRoles [role.name] member.name := by
  have hdrop : dropBytes? Command.grantBytes (grantRoles [role] member).text.toList =
      some (spaced [role.name.toList, "TO".toList, member.name.toList]) := by
    have hbytes : ∀ c ∈ "GRANT ".toList, c.utf8Size = 1 :=
      @of_decide_eq_true _ (List.decidableBAll _ _) rfl
    rw [toList_text (show IsPlain (grantRoles [role] member) from rfl)]
    exact dropBytes?_append hbytes _
  have hcut : cutAtText (wordMark "TO".toList)
      (spaced [role.name.toList, "TO".toList, member.name.toList]) =
      some (role.name.toList, member.name.toList) := by
    rw [cutAtText_spaced_cons (by decide) role.isWord (by decide) (by simp), if_pos rfl]
    rfl
  unfold Command.readGrant
  rw [hdrop, Option.bind_some, show Command.toMark = wordMark "TO".toList from rfl, hcut]
  show Command.grantRoles (Command.namesOf role.name.toList) (String.ofList member.name.toList) = _
  rw [namesOf_name, String.ofList_toList]

/-- A grant of a role is read as what it is, unless the role is named like the word in front of an
object. -/
theorem read_grantRoles (role member : Identifier) :
    Command.read (grantRoles [role] member).text =
      if role.name = "ON" then .other else .grantRoles [role.name] member.name := by
  have hplain : IsPlain (grantRoles [role] member) := rfl
  have hon := occursIn_text_iff hplain (show IsWord "ON".toList by decide)
  unfold Command.read
  rw [wordsOf_text hplain]
  show (if occursIn (wordMark "ON".toList) (grantRoles [role] member).text.toList then Command.other
    else Command.readGrant (grantRoles [role] member).text) = _
  rw [readGrant_text]
  by_cases h : role.name = "ON"
  · rw [if_pos h, if_pos (hon.mpr (by simp [words, h]))]
  · rw [if_neg h, if_neg fun hc => absurd (hon.mp hc) (by simp [words, Ne.symm h])]

/-- The first words of a text whose third word is a name. -/
theorem wordsOf_of_name {text first second : String} {role : Identifier} {rest : List Char}
    (hfirst : IsWord first.toList) (hsecond : IsWord second.toList)
    (h : text.toList = first.toList ++ ' ' :: (second.toList ++ ' ' :: (role.name.toList ++
      ' ' :: rest))) :
    wordsOf text = first :: second :: role.name :: (Text.words rest).map String.ofList := by
  rw [wordsOf, h, words_append_space, words_append_space, words_append_space,
    words_of_isWord hfirst, words_of_isWord hsecond, words_of_isWord role.isWord]
  simp only [List.map_append, List.map_singleton, String.ofList_toList]
  rfl

/-- A new role gets the roles that are read out of the text. -/
theorem read_createRole (role : Identifier) (login : Bool) (password : Option String)
    (roles : List Identifier) :
    Command.read (createRole role login password roles).text =
      .createRole role.name
        (Command.newRoles (createRole role login password roles).text.toList) := by
  have htext : (createRole role login password roles).text.toList =
      "CREATE".toList ++ ' ' :: ("ROLE".toList ++ ' ' :: (role.name.toList ++ ' ' ::
        ("WITH ".toList ++ ((if login then "LOGIN" else "NOLOGIN").toList ++
          ((passwordText password).toList ++ (rolesText roles).toList))))) := by
    unfold text
    simp [toString]
  unfold Command.read
  rw [wordsOf_of_name (by decide) (by decide) htext]
  rfl

/-- No roles are read out of the text of a role that is to get none. -/
theorem newRoles_createRole (role : Identifier) (login : Bool) :
    Command.newRoles (createRole role login none []).text.toList = [] := by
  have hplain : IsPlain (createRole role login none []) := ⟨rfl, rfl⟩
  unfold Command.newRoles
  cases hcut : cutAtText Command.inRoleMark (createRole role login none []).text.toList with
  | none => rfl
  | some parts =>
      exfalso
      have hwords := congrArg Text.words (eq_append_of_cutAtText_eq_some hcut)
      have hmark : Command.inRoleMark ++ parts.2 =
          ' ' :: ("IN".toList ++ ' ' :: ("ROLE".toList ++ ' ' :: parts.2)) := rfl
      rw [hmark, words_append_space, words_append_space, words_append_space,
        words_of_isWord (show IsWord "IN".toList by decide),
        words_of_isWord (show IsWord "ROLE".toList by decide), toList_text hplain,
        words_spaced (isWord_of_mem_map_words _)] at hwords
      simp only [words, List.map_cons, List.map_nil] at hwords
      -- `IN` and `ROLE` would stand in for two neighbours among five words.
      rcases hfront : Text.words parts.1 with _ | ⟨a, _ | ⟨b, _ | ⟨c, _ | ⟨d, l⟩⟩⟩⟩ <;>
        rw [hfront] at hwords
      · simp at hwords
      · simp at hwords
      · simp at hwords
      · simp at hwords
      · have hlength := congrArg List.length hwords
        simp only [List.length_cons, List.length_append, List.length_nil] at hlength
        omega

/-! ## Statements that change nothing that a catalog knows -/

/-- Whether a statement is about passwords or privileges only. -/
def IsQuiet : Statement → Prop
  | .setPassword .. | .alterService .. | .revokeDatabase _ | .revokeSchema | .revokeTables
  | .grantConnect .. | .grantUsage .. | .grantTables .. => True
  | _ => False

/-- A grant that names an object changes nothing. -/
theorem read_of_on {st : Statement} {rest : List String} (h : st.IsPlain)
    (hwords : st.words = "GRANT" :: rest) (hon : "ON" ∈ rest.dropLast) :
    Command.read st.text = .other := by
  have hoccurs := (occursIn_text_iff h (show IsWord "ON".toList by decide)).mpr
    (by rw [hwords]; exact hon)
  unfold Command.read
  rw [wordsOf_text h, hwords]
  show (if occursIn (wordMark "ON".toList) st.text.toList then Command.other else _) = _
  rw [if_pos hoccurs]

/-- A statement about passwords or privileges changes nothing. -/
theorem read_quiet {st : Statement} (h : st.IsQuiet) : Command.read st.text = .other := by
  cases st with
  | setPassword role password =>
      have htext : (setPassword role password).text.toList =
          "ALTER".toList ++ ' ' :: ("ROLE".toList ++ ' ' :: (role.name.toList ++ ' ' ::
            ("WITH PASSWORD ".toList ++ (literal password).toList))) := by
        unfold text
        simp [toString]
      unfold Command.read
      rw [wordsOf_of_name (by decide) (by decide) htext]
      rfl
  | alterService role password =>
      have htext : (alterService role password).text.toList =
          "ALTER".toList ++ ' ' :: ("ROLE".toList ++ ' ' :: (role.name.toList ++ ' ' ::
            ("WITH LOGIN PASSWORD ".toList ++ ((literal password).toList ++
              " VALID UNTIL 'infinity' NOCREATEROLE".toList)))) := by
        unfold text
        simp [toString]
      unfold Command.read
      rw [wordsOf_of_name (by decide) (by decide) htext]
      rfl
  | revokeDatabase database =>
      unfold Command.read
      rw [wordsOf_text (show IsPlain (revokeDatabase database) from trivial)]
      rfl
  | revokeSchema =>
      unfold Command.read
      rw [wordsOf_text (show IsPlain (revokeSchema) from trivial)]
      rfl
  | revokeTables =>
      unfold Command.read
      rw [wordsOf_text (show IsPlain (revokeTables) from trivial)]
      rfl
  | grantConnect database role => exact read_of_on trivial rfl (by simp)
  | grantUsage schema role => exact read_of_on trivial rfl (by simp)
  | grantTables privileges schema role =>
      refine read_of_on trivial rfl ?_
      cases privileges <;> simp [TablePrivileges.words]
  | _ => cases h

end Statement

end PgSteward
