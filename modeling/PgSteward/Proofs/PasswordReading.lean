import PgSteward.Proofs.StatementReading

/-!
# Passwords in statements

A server looks for the roles of a new role behind the first `IN ROLE` of the statement, and the
password stands in front of them.  A password without these words, with a space around them, does
not get in the way, however many quotes it has (`newRoles_createLogin`): the mark holds no quote, so
it is found in a quoted text only where it is found in the text itself.
-/

namespace PgSteward

namespace Text

variable {mark w : List Char}

/-- A quoted text starts with a mark without quotes only if the text itself does. -/
theorem dropStart?_doubled (hquote : '\'' ∉ mark) (h : dropStart? mark w = none)
    (rest : List Char) : dropStart? mark (w.flatMap doubledChar ++ '\'' :: rest) = none := by
  induction mark generalizing w with
  | nil => cases h
  | cons p ps ih =>
      rw [List.mem_cons, not_or] at hquote
      obtain ⟨hp, hps⟩ := hquote
      cases w with
      | nil => exact if_neg (Ne.symm hp)
      | cons c cs =>
          rw [List.flatMap_cons, doubledChar]
          by_cases hc : c = '\''
          · rw [if_pos hc]
            exact if_neg (Ne.symm hp)
          · rw [if_neg hc]
            show (if p = c then dropStart? ps (cs.flatMap doubledChar ++ '\'' :: rest) else none) = _
            rw [dropStart?] at h
            split
            next hpc =>
              rw [if_pos hpc] at h
              exact ih hps h
            next => rfl

/-- The text behind the first mark. -/
def behind? (mark cs : List Char) : Option (List Char) := (cutAtText mark cs).map (·.2)

/-- When a text does not start with the mark, its first character makes no difference. -/
theorem behind?_cons {c : Char} {cs : List Char} (h : dropStart? mark (c :: cs) = none) :
    behind? mark (c :: cs) = behind? mark cs := by
  rw [behind?, cutAtText, h, Option.map_map]
  rfl

/-- When a word does not follow, the first word makes no difference. -/
theorem behind?_append_space {key rest : List Char} (hw : ' ' ∉ w)
    (h : dropStart? (key ++ [' ']) rest = none) :
    behind? (wordMark key) (w ++ ' ' :: rest) = behind? (wordMark key) rest := by
  rw [behind?, cutAtText_append_space hw, h]
  dsimp only
  rw [Option.map_map]
  rfl

/-- A quoted text without the mark makes no difference, when the mark holds no quote. -/
theorem behind?_doubled (hne : mark ≠ []) (hquote : '\'' ∉ mark) (h : occursIn mark w = false)
    (rest : List Char) :
    behind? mark (w.flatMap doubledChar ++ '\'' :: rest) = behind? mark rest := by
  have hskip : ∀ cs : List Char, behind? mark ('\'' :: cs) = behind? mark cs := by
    refine fun cs => behind?_cons ?_
    cases mark with
    | nil => exact absurd rfl hne
    | cons p ps => exact if_neg fun hp : p = '\'' => hquote (hp ▸ List.mem_cons_self ..)
  induction w with
  | nil => exact hskip rest
  | cons c cs ih =>
      have hnone : dropStart? mark (c :: cs) = none := by
        cases hdrop : dropStart? mark (c :: cs) with
        | none => rfl
        | some back =>
            rw [occursIn, cutAtText, hdrop] at h
            cases h
      have hcs : occursIn mark cs = false := by
        rwa [occursIn, cutAtText, hnone, Option.isSome_map] at h
      have hdrop := dropStart?_doubled hquote hnone rest
      rw [List.flatMap_cons, doubledChar, List.append_assoc] at hdrop ⊢
      by_cases hc : c = '\''
      · rw [if_pos hc]
        exact (hskip _).trans ((hskip _).trans (ih hcs))
      · rw [if_neg hc] at hdrop ⊢
        exact (behind?_cons hdrop).trans (ih hcs)

end Text

namespace Statement

open Text

/-- The roles of a new role stand behind the mark. -/
theorem newRoles_eq (cs : List Char) :
    Command.newRoles cs = ((behind? Command.inRoleMark cs).map Command.namesOf).getD [] := by
  rw [Command.newRoles, behind?]
  cases cutAtText Command.inRoleMark cs with
  | none => rfl
  | some parts => rfl

/-- What is read behind the mark of a new role with a password, when the password does not hold the
mark, is what stands behind it in the text for the roles. -/
theorem behind?_createLogin (role : Identifier) {password : String} (roles : List Identifier)
    (h : occursIn Command.inRoleMark password.toList = false) :
    behind? Command.inRoleMark (createRole role true (some password) roles).text.toList =
      behind? Command.inRoleMark (rolesText roles).toList := by
  have htext : (createRole role true (some password) roles).text.toList =
      "CREATE".toList ++ ' ' :: ("ROLE".toList ++ ' ' :: (role.name.toList ++ ' ' ::
        ("WITH".toList ++ ' ' :: ("LOGIN".toList ++ ' ' :: ("PASSWORD".toList ++ ' ' ::
          ('\'' :: (password.toList.flatMap doubledChar ++ '\'' ::
            (rolesText roles).toList))))))) := by
    unfold text
    simp [passwordText, literal, singleQuoted, toString]
  -- The role may be named `IN`, but the word `WITH` follows.
  have hname : ∀ rest : List Char, dropStart? ("IN ROLE".toList ++ [' '])
      (role.name.toList ++ ' ' :: ("WITH".toList ++ ' ' :: rest)) = none := by
    intro rest
    rw [Option.eq_none_iff_forall_ne_some]
    intro back hback
    rw [dropStart?_eq_some_iff] at hback
    have hin := cutAt_eq_some_iff.mpr ⟨space_not_mem role.isWord, hback.symm⟩
    have hrole : cutAt ' ' ("IN ROLE".toList ++ [' '] ++ back) =
        some ("IN".toList, "ROLE ".toList ++ back) := rfl
    have hword : 'W' :: ("ITH ".toList ++ rest) = 'R' :: ("OLE ".toList ++ back) :=
      congrArg Prod.snd (Option.some.inj (hin.symm.trans hrole))
    cases hword
  rw [htext, show Command.inRoleMark = wordMark "IN ROLE".toList from rfl,
    behind?_append_space (by decide) rfl, behind?_append_space (by decide) (hname _),
    behind?_append_space (space_not_mem role.isWord) rfl, behind?_append_space (by decide) rfl,
    behind?_append_space (by decide) rfl, behind?_append_space (by decide) rfl, behind?_cons rfl]
  exact behind?_doubled (by decide) (by decide) h _

/-- The role that a new login role is a member of is read out of its text, if there is one, when the
password does not hold the mark. -/
theorem newRoles_createLogin (role : Identifier) {password : String} {roles : List Identifier}
    (hroles : roles = [] ∨ ∃ group, roles = [group])
    (h : occursIn Command.inRoleMark password.toList = false) :
    Command.newRoles (createRole role true (some password) roles).text.toList =
      roles.map (·.name) := by
  rw [newRoles_eq, behind?_createLogin role roles h]
  rcases hroles with rfl | ⟨group, rfl⟩
  · rfl
  · have hbehind : behind? Command.inRoleMark (rolesText [group]).toList =
        some group.name.toList := by
      simp [rolesText, listText]
      rfl
    rw [hbehind, Option.map_some, Option.getD_some, namesOf_name]
    rfl

end Statement

end PgSteward
