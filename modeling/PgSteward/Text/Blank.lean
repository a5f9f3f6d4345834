/-!
# Blanks and words

A *blank* is a character with the Unicode property White_Space.  Connection parameters, command
line entries and the statements read by the in-memory cluster are cut into words at runs of
blanks, and entries are stripped of the blanks around them.

`words_eq_nil_iff` says that a text has no words exactly when it is all blank, and
`isBlank_of_mem_words` that no word holds a blank.
-/

namespace PgSteward.Text

/-- The characters with the property White_Space, 25 code points. -/
def isBlank (c : Char) : Bool :=
  let n := c.toNat
  (9 ≤ n && n ≤ 13) || n == 0x20 || n == 0x85 || n == 0xA0 || n == 0x1680 ||
    (0x2000 ≤ n && n ≤ 0x200A) || n == 0x2028 || n == 0x2029 || n == 0x202F || n == 0x205F ||
    n == 0x3000

/-- Puts a character in front of the first word, or makes it a word of its own. -/
def extendWord (c : Char) : List (List Char) → List (List Char)
  | [] => [[c]]
  | w :: ws => (c :: w) :: ws

/-- Whether a text is empty or starts with a blank. -/
def wordEnds : List Char → Bool
  | [] => true
  | c :: _ => isBlank c

/-- The maximal runs of characters that are not blank, in order. -/
def words : List Char → List (List Char)
  | [] => []
  | c :: cs =>
      if isBlank c then words cs
      else if wordEnds cs then [c] :: words cs
      else extendWord c (words cs)

/-- The words of a text. -/
def wordsOf (s : String) : List String := (words s.toList).map String.ofList

/-- A text without the blanks at its start. -/
def trimLeft (cs : List Char) : List Char := cs.dropWhile isBlank

/-- A text without the blanks at its end. -/
def trimRight (cs : List Char) : List Char := (cs.reverse.dropWhile isBlank).reverse

/-- A text without the blanks around it. -/
def trim (cs : List Char) : List Char := trimRight (trimLeft cs)

/-! ## Laws -/

theorem words_blank_cons {c : Char} (h : isBlank c = true) (cs : List Char) :
    words (c :: cs) = words cs := by
  simp [words, h]

theorem words_cons_end {c : Char} {cs : List Char} (h : isBlank c = false)
    (he : wordEnds cs = true) : words (c :: cs) = [c] :: words cs := by
  simp [words, h, he]

theorem words_cons_more {c : Char} {cs : List Char} (h : isBlank c = false)
    (he : wordEnds cs = false) : words (c :: cs) = extendWord c (words cs) := by
  simp [words, h, he]

/-- A text has no words exactly when it is all blank. -/
theorem words_eq_nil_iff (cs : List Char) : words cs = [] ↔ ∀ c ∈ cs, isBlank c = true := by
  induction cs with
  | nil => simp [words]
  | cons c cs ih =>
      cases h : isBlank c with
      | true => simp [words_blank_cons h, ih, h]
      | false =>
          cases he : wordEnds cs with
          | true => simp [words_cons_end h he, h]
          | false => cases hw : words cs <;> simp [words_cons_more h he, extendWord, h, hw]

/-- No word holds a blank. -/
theorem isBlank_of_mem_words (cs : List Char) :
    ∀ w ∈ words cs, ∀ c ∈ w, isBlank c = false := by
  induction cs with
  | nil => simp [words]
  | cons a cs ih =>
      cases h : isBlank a with
      | true => rw [words_blank_cons h]; exact ih
      | false =>
          cases he : wordEnds cs with
          | true =>
              rw [words_cons_end h he]
              intro w hw
              cases List.mem_cons.mp hw with
              | inl hw => subst hw; simp [h]
              | inr hw => exact ih w hw
          | false =>
              rw [words_cons_more h he]
              cases hs : words cs with
              | nil => simp [extendWord, h]
              | cons v vs =>
                  rw [hs] at ih
                  intro w hw
                  cases List.mem_cons.mp hw with
                  | inl hw =>
                      subst hw
                      intro c hc
                      cases List.mem_cons.mp hc with
                      | inl hc => subst hc; exact h
                      | inr hc => exact ih v (List.mem_cons_self ..) c hc
                  | inr hw => exact ih w (List.mem_cons_of_mem _ hw)

example : wordsOf " sslmode=disable \u2003a=b" = ["sslmode=disable", "a=b"] := by decide

end PgSteward.Text
