/-!
# Cutting texts

A text is cut at the first or the last occurrence of a mark, or into all the pieces between the
marks.  The mark itself is dropped.  `cutAt_eq_some_iff` says what the first cut is: the text in
front of the mark does not hold it.
-/

namespace PgSteward.Text

/-- The texts before and after the first `mark`. -/
def cutAt (mark : Char) : List Char → Option (List Char × List Char)
  | [] => none
  | c :: cs =>
      if c = mark then some ([], cs)
      else (cutAt mark cs).map fun parts => (c :: parts.1, parts.2)

/-- The texts before and after the last `mark`. -/
def cutAtLast (mark : Char) (cs : List Char) : Option (List Char × List Char) :=
  (cutAt mark cs.reverse).map fun parts => (parts.2.reverse, parts.1.reverse)

/-- The rest of a text that starts with `start`. -/
def dropStart? : (start : List Char) → List Char → Option (List Char)
  | [], cs => some cs
  | _ :: _, [] => none
  | p :: ps, c :: cs => if p = c then dropStart? ps cs else none

/-- The texts before and after the first occurrence of a text as a whole. -/
def cutAtText (mark : List Char) : List Char → Option (List Char × List Char)
  | [] => (dropStart? mark []).map fun rest => ([], rest)
  | c :: cs =>
      match dropStart? mark (c :: cs) with
      | some rest => some ([], rest)
      | none => (cutAtText mark cs).map fun parts => (c :: parts.1, parts.2)

/-- All the pieces between the marks; a text without a mark is one piece. -/
def pieces (mark : Char) : List Char → List (List Char)
  | [] => [[]]
  | c :: cs =>
      if c = mark then [] :: pieces mark cs
      else
        match pieces mark cs with
        | [] => [[c]]
        | p :: ps => (c :: p) :: ps

/-- Whether a text as a whole occurs in another. -/
def occursIn (part text : List Char) : Bool := (cutAtText part text).isSome

/-! ## Laws -/

/-- The first cut: what is in front does not hold the mark, and nothing else is lost. -/
theorem cutAt_eq_some_iff {mark : Char} {cs front back : List Char} :
    cutAt mark cs = some (front, back) ↔ mark ∉ front ∧ cs = front ++ mark :: back := by
  induction cs generalizing front with
  | nil => simp [cutAt]
  | cons c cs ih =>
      by_cases h : c = mark
      · subst h
        rw [cutAt, if_pos rfl]
        constructor
        · intro he
          cases he
          exact ⟨by simp, by simp⟩
        · rintro ⟨hfront, he⟩
          cases front with
          | nil => simp at he; simp [he]
          | cons f fs => simp at he; simp [he.1] at hfront
      · rw [cutAt, if_neg h]
        cases front with
        | nil =>
            simp only [Option.map_eq_some_iff, Prod.mk.injEq]
            constructor
            · rintro ⟨p, -, hc, -⟩; cases hc
            · rintro ⟨-, he⟩; simp at he; exact absurd he.1 h
        | cons f fs =>
            simp only [Option.map_eq_some_iff, Prod.mk.injEq, List.cons.injEq, List.mem_cons,
              not_or, List.cons_append]
            constructor
            · rintro ⟨⟨a, b⟩, hp, ⟨hf, hfs⟩, hb⟩
              subst hf hfs hb
              have := ih.mp hp
              exact ⟨⟨fun e => h e.symm, this.1⟩, rfl, this.2⟩
            · rintro ⟨⟨-, hfs⟩, hf, he⟩
              exact ⟨(fs, back), ih.mpr ⟨hfs, he⟩, ⟨hf, rfl⟩, rfl⟩

/-- A text is not cut exactly when it does not hold the mark. -/
theorem cutAt_eq_none_iff {mark : Char} {cs : List Char} :
    cutAt mark cs = none ↔ mark ∉ cs := by
  induction cs with
  | nil => simp [cutAt]
  | cons c cs ih =>
      by_cases h : c = mark
      · simp [cutAt, h]
      · simp [cutAt, h, ih, Ne.symm h]

/-- The last cut: what is behind does not hold the mark, and nothing else is lost. -/
theorem cutAtLast_eq_some_iff {mark : Char} {cs front back : List Char} :
    cutAtLast mark cs = some (front, back) ↔ mark ∉ back ∧ cs = front ++ mark :: back := by
  rw [cutAtLast, Option.map_eq_some_iff]
  constructor
  · rintro ⟨⟨last, first⟩, hcut, hparts⟩
    cases hparts
    obtain ⟨hlast, hcs⟩ := cutAt_eq_some_iff.mp hcut
    refine ⟨fun h => hlast (List.mem_reverse.mp h), ?_⟩
    rw [← cs.reverse_reverse, hcs]
    simp
  · rintro ⟨hback, rfl⟩
    refine ⟨(back.reverse, front.reverse), cutAt_eq_some_iff.mpr ⟨?_, by simp⟩, by simp⟩
    exact fun h => hback (List.mem_reverse.mp h)

theorem cutAtLast_eq_none_iff {mark : Char} {cs : List Char} :
    cutAtLast mark cs = none ↔ mark ∉ cs := by
  rw [cutAtLast, Option.map_eq_none_iff, cutAt_eq_none_iff, List.mem_reverse]

theorem dropStart?_eq_some_iff {start cs rest : List Char} :
    dropStart? start cs = some rest ↔ cs = start ++ rest := by
  induction start generalizing cs with
  | nil => simp [dropStart?, eq_comm]
  | cons p ps ih =>
      cases cs with
      | nil => simp [dropStart?]
      | cons c cs =>
          by_cases h : p = c
          · simp [dropStart?, h, ih]
          · simp [dropStart?, h, Ne.symm h]

theorem pieces_ne_nil (mark : Char) (cs : List Char) : pieces mark cs ≠ [] := by
  cases cs with
  | nil => simp [pieces]
  | cons c cs =>
      rw [pieces]
      split
      · simp
      · split <;> simp

example : cutAtLast ':' "a:b:1".toList = some ("a:b".toList, ['1']) := by decide

example : pieces ',' "a,,b".toList = [['a'], [], ['b']] := by decide

end PgSteward.Text
