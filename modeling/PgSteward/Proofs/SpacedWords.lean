import PgSteward.Postgres.Identifier
import PgSteward.Text.Blank
import PgSteward.Text.Cut

/-!
# Words with spaces between them

A text that is put together from words with one space between any two is taken apart into the same
words (`words_spaced`).  A cut at a word between spaces finds the first inner word that is the same
(`cutAtText_spaced_cons`).  Names are words (`Identifier.isWord`).
-/

namespace PgSteward

namespace Text

/-- A text that is not empty and holds no blank. -/
def IsWord (w : List Char) : Prop := w ≠ [] ∧ ∀ c ∈ w, isBlank c = false

-- The characters of the word are gone through, not all characters.
instance (w : List Char) : Decidable (IsWord w) :=
  haveI : Decidable (∀ c ∈ w, isBlank c = false) := List.decidableBAll _ w
  inferInstanceAs (Decidable (w ≠ [] ∧ ∀ c ∈ w, isBlank c = false))

/-- Words with one space between any two. -/
def spaced : List (List Char) → List Char
  | [] => []
  | [w] => w
  | w :: v :: rest => w ++ ' ' :: spaced (v :: rest)

/-! ## Taking words apart -/

theorem isBlank_space : isBlank ' ' = true := by decide

/-- A text that starts with no blank has a first word. -/
theorem words_ne_nil {cs : List Char} (h : wordEnds cs = false) : words cs ≠ [] := by
  cases cs with
  | nil => cases h
  | cons c cs =>
      intro hnil
      have hblank := (words_eq_nil_iff (c :: cs)).mp hnil c (List.mem_cons_self ..)
      rw [show isBlank c = false from h] at hblank
      cases hblank

/-- The words on both sides of a space are the words of the text. -/
theorem words_append_space (front back : List Char) :
    words (front ++ ' ' :: back) = words front ++ words back := by
  induction front with
  | nil => exact words_blank_cons isBlank_space back
  | cons c cs ih =>
      rw [List.cons_append]
      cases hc : isBlank c with
      | true => rw [words_blank_cons hc, words_blank_cons hc, ih]
      | false =>
          have hends : wordEnds (cs ++ ' ' :: back) = wordEnds cs := by
            cases cs with
            | nil => exact isBlank_space
            | cons d ds => rfl
          cases hend : wordEnds cs with
          | true =>
              rw [words_cons_end hc (hends.trans hend), words_cons_end hc hend, ih]
              rfl
          | false =>
              obtain ⟨w, ws, hw⟩ : ∃ w ws, words cs = w :: ws := by
                cases h : words cs with
                | nil => exact absurd h (words_ne_nil hend)
                | cons w ws => exact ⟨w, ws, rfl⟩
              rw [words_cons_more hc (hends.trans hend), words_cons_more hc hend, ih, hw]
              rfl

/-- A word that is followed by a blank or by nothing is the first word. -/
theorem words_append {w cs : List Char} (hw : IsWord w) (hcs : wordEnds cs = true) :
    words (w ++ cs) = w :: words cs := by
  obtain ⟨hne, hblank⟩ := hw
  induction w with
  | nil => exact absurd rfl hne
  | cons c rest ih =>
      have hc := hblank c (List.mem_cons_self ..)
      cases rest with
      | nil => exact words_cons_end hc hcs
      | cons d ds =>
          have hrest : ∀ e ∈ d :: ds, isBlank e = false := fun e he =>
            hblank e (List.mem_cons_of_mem _ he)
          have hmore : wordEnds (d :: ds ++ cs) = false := hrest d (List.mem_cons_self ..)
          rw [List.cons_append, words_cons_more hc hmore, ih (List.cons_ne_nil d ds) hrest]
          rfl

/-- A word is its only word. -/
theorem words_of_isWord {w : List Char} (h : IsWord w) : words w = [w] := by
  have hfirst := words_append h (rfl : wordEnds [] = true)
  rwa [List.append_nil] at hfirst

/-- Words with spaces between them are taken apart into the same words. -/
theorem words_spaced {ws : List (List Char)} (h : ∀ w ∈ ws, IsWord w) : words (spaced ws) = ws := by
  induction ws with
  | nil => rfl
  | cons w rest ih =>
      have hw := h w (List.mem_cons_self ..)
      have hrest := ih fun v hv => h v (List.mem_cons_of_mem _ hv)
      cases rest with
      | nil => exact words_of_isWord hw
      | cons v vs =>
          rw [spaced, words_append_space, words_of_isWord hw, hrest]
          rfl

/-! ## Cutting at a word -/

/-- A word with a space on either side. -/
def wordMark (key : List Char) : List Char := ' ' :: (key ++ [' '])

theorem space_not_mem {w : List Char} (h : IsWord w) : ' ' ∉ w := by
  intro hmem
  have := h.2 ' ' hmem
  rw [isBlank_space] at this
  cases this

/-- A text that starts with a word and a space starts with no other word and a space. -/
theorem dropStart?_word_space {key w : List Char} (hkey : IsWord key) (hw : IsWord w)
    (rest : List Char) :
    dropStart? (key ++ [' ']) (w ++ ' ' :: rest) = if w = key then some rest else none := by
  split
  next h =>
    rw [dropStart?_eq_some_iff, h, List.append_assoc]
    rfl
  next h =>
    cases hdrop : dropStart? (key ++ [' ']) (w ++ ' ' :: rest) with
    | none => rfl
    | some back =>
        exfalso
        rw [dropStart?_eq_some_iff, List.append_assoc, List.singleton_append] at hdrop
        have hw' := cutAt_eq_some_iff.mpr ⟨space_not_mem hw, hdrop.symm⟩
        have hkey' := cutAt_eq_some_iff.mpr ⟨space_not_mem hkey, (rfl : key ++ ' ' :: back = _)⟩
        rw [hkey'] at hw'
        cases hw'
        exact h rfl

/-- A text without a space does not start with a word and a space. -/
theorem dropStart?_word {key w : List Char} (hw : IsWord w) :
    dropStart? (key ++ [' ']) w = none := by
  cases hdrop : dropStart? (key ++ [' ']) w with
  | none => rfl
  | some back =>
      rw [dropStart?_eq_some_iff] at hdrop
      refine absurd ?_ (space_not_mem hw)
      rw [hdrop]
      simp

/-- No word is cut out of a text without a space. -/
theorem cutAtText_word {key w : List Char} (h : ' ' ∉ w) : cutAtText (wordMark key) w = none := by
  induction w with
  | nil => rfl
  | cons c cs ih =>
      have hc : ' ' ≠ c := fun e => h (by rw [e]; exact List.mem_cons_self ..)
      have hcs : ' ' ∉ cs := fun hmem => h (List.mem_cons_of_mem _ hmem)
      simp [cutAtText, wordMark, dropStart?, hc]
      exact ih hcs

/-- Behind the first word a word is cut out, or later. -/
theorem cutAtText_append_space {key w : List Char} (h : ' ' ∉ w) (rest : List Char) :
    cutAtText (wordMark key) (w ++ ' ' :: rest) =
      match dropStart? (key ++ [' ']) rest with
      | some back => some (w, back)
      | none =>
        (cutAtText (wordMark key) rest).map fun parts => (w ++ ' ' :: parts.1, parts.2) := by
  induction w with
  | nil =>
      rw [List.nil_append, cutAtText]
      simp only [wordMark, dropStart?, if_true]
      rfl
  | cons c cs ih =>
      have hc : ' ' ≠ c := fun e => h (by rw [e]; exact List.mem_cons_self ..)
      have hcs : ' ' ∉ cs := fun hmem => h (List.mem_cons_of_mem _ hmem)
      rw [List.cons_append, cutAtText, ih hcs]
      simp only [wordMark, dropStart?, if_neg hc]
      cases dropStart? (key ++ [' ']) rest with
      | some back => rfl
      | none => simp [Function.comp_def]

/-- The first inner word that is the same is cut out. -/
theorem cutAtText_spaced_cons {key w v : List Char} {rest : List (List Char)} (hkey : IsWord key)
    (hw : IsWord w) (hv : IsWord v) (hrest : rest ≠ []) :
    cutAtText (wordMark key) (spaced (w :: v :: rest)) =
      if v = key then some (w, spaced rest)
      else (cutAtText (wordMark key) (spaced (v :: rest))).map fun parts =>
        (w ++ ' ' :: parts.1, parts.2) := by
  cases rest with
  | nil => exact absurd rfl hrest
  | cons u us =>
      rw [spaced, cutAtText_append_space (space_not_mem hw), spaced,
        dropStart?_word_space hkey hv]
      by_cases h : v = key
      · simp [h]
      · simp [h]

/-- The last word is not cut out. -/
theorem cutAtText_spaced_two {key w v : List Char} (hw : IsWord w) (hv : IsWord v) :
    cutAtText (wordMark key) (spaced [w, v]) = none := by
  rw [spaced, cutAtText_append_space (space_not_mem hw), spaced, dropStart?_word hv,
    cutAtText_word (space_not_mem hv)]
  rfl

/-- A word occurs between spaces exactly when it is an inner word. -/
theorem occursIn_spaced_iff {key : List Char} {ws : List (List Char)} (hkey : IsWord key)
    (h : ∀ w ∈ ws, IsWord w) :
    occursIn (wordMark key) (spaced ws) = true ↔ key ∈ ws.tail.dropLast := by
  unfold occursIn
  induction ws with
  | nil => simp [spaced, cutAtText, wordMark, dropStart?]
  | cons w rest ih =>
      have hw := h w (List.mem_cons_self ..)
      have hrest : ∀ v ∈ rest, IsWord v := fun v hv => h v (List.mem_cons_of_mem _ hv)
      cases rest with
      | nil =>
          rw [spaced, cutAtText_word (space_not_mem hw)]
          simp
      | cons v more =>
          have hv := hrest v (List.mem_cons_self ..)
          cases more with
          | nil =>
              rw [cutAtText_spaced_two hw hv]
              simp
          | cons u us =>
              rw [cutAtText_spaced_cons hkey hw hv (by simp)]
              by_cases hkeyed : v = key
              · simp [hkeyed]
              · rw [if_neg hkeyed, Option.isSome_map, ih hrest]
                simp [Ne.symm hkeyed]

/-- A cut leaves out nothing but the mark. -/
theorem eq_append_of_cutAtText_eq_some {mark cs : List Char} {parts : List Char × List Char}
    (h : cutAtText mark cs = some parts) :
    cs = parts.1 ++ (mark ++ parts.2) := by
  induction cs generalizing parts with
  | nil =>
      obtain ⟨rest, hdrop, rfl⟩ := Option.map_eq_some_iff.mp h
      exact show _ = mark ++ rest from dropStart?_eq_some_iff.mp hdrop
  | cons c cs ih =>
      rw [cutAtText] at h
      cases hdrop : dropStart? mark (c :: cs) with
      | some rest =>
          rw [hdrop] at h
          cases h
          exact show _ = mark ++ rest from dropStart?_eq_some_iff.mp hdrop
      | none =>
          rw [hdrop] at h
          obtain ⟨inner, hinner, rfl⟩ := Option.map_eq_some_iff.mp h
          exact congrArg (c :: ·) (ih hinner)

/-! ## Words as pieces -/

/-- A word has no blanks around it. -/
theorem trim_of_isWord {w : List Char} (h : IsWord w) : trim w = w := by
  have hleft : ∀ v : List Char, (∀ c ∈ v, isBlank c = false) → v.dropWhile isBlank = v := by
    intro v hv
    cases v with
    | nil => rfl
    | cons c cs => rw [List.dropWhile_cons_of_neg (by rw [hv c (List.mem_cons_self ..)]; decide)]
  rw [trim, trimLeft, trimRight, hleft w h.2, hleft _ fun c hc => h.2 c (List.mem_reverse.mp hc),
    List.reverse_reverse]

/-- A text without the mark is one piece. -/
theorem pieces_of_not_mem {mark : Char} {cs : List Char} (h : mark ∉ cs) :
    pieces mark cs = [cs] := by
  induction cs with
  | nil => rfl
  | cons c cs ih =>
      rw [List.mem_cons, not_or] at h
      rw [pieces, if_neg (Ne.symm h.1), ih h.2]

end Text

/-! ## Names -/

theorem isBlank_of_isNameChar {c : Char} (h : isNameChar c = true) : Text.isBlank c = false := by
  have hrange : c.toNat = 95 ∨ (48 ≤ c.toNat ∧ c.toNat ≤ 57) ∨ (65 ≤ c.toNat ∧ c.toNat ≤ 90) ∨
      (97 ≤ c.toNat ∧ c.toNat ≤ 122) := by
    unfold isNameChar Char.isAlphanum Char.isAlpha Char.isUpper Char.isLower Char.isDigit at h
    simp only [Bool.or_eq_true, Bool.and_eq_true, decide_eq_true_eq, UInt32.le_iff_toNat_le] at h
    rcases h with h | rfl
    · change (65 ≤ c.toNat ∧ c.toNat ≤ 90 ∨ 97 ≤ c.toNat ∧ c.toNat ≤ 122) ∨
        48 ≤ c.toNat ∧ c.toNat ≤ 57 at h
      omega
    · exact .inl rfl
  cases hb : Text.isBlank c with
  | false => rfl
  | true =>
      simp only [Text.isBlank, Bool.or_eq_true, Bool.and_eq_true, decide_eq_true_eq,
        beq_iff_eq] at hb
      omega

theorem ne_comma_of_isNameChar {c : Char} (h : isNameChar c = true) : c ≠ ',' := by
  rintro rfl
  cases h

theorem Identifier.isNameChar_of_mem {i : Identifier} {c : Char} (h : c ∈ i.name.toList) :
    isNameChar c = true := by
  have hname := i.isName
  unfold PgSteward.isName at hname
  cases hchars : i.name.toList with
  | nil =>
      rw [hchars] at h
      cases h
  | cons d ds =>
      rw [hchars] at h hname
      obtain ⟨hfirst, hrest⟩ := Bool.and_eq_true_iff.mp hname
      rcases List.mem_cons.mp h with rfl | hmem
      · unfold isNameChar Char.isAlphanum
        rw [Bool.or_eq_true] at hfirst ⊢
        rcases hfirst with halpha | hlow
        · exact .inl (by rw [halpha]; rfl)
        · exact .inr hlow
      · exact List.all_eq_true.mp hrest c hmem

/-- A name is a word. -/
theorem Identifier.isWord (i : Identifier) : Text.IsWord i.name.toList := by
  refine ⟨fun hnil => ?_, fun c hc => isBlank_of_isNameChar (isNameChar_of_mem hc)⟩
  have hname := i.isName
  unfold PgSteward.isName at hname
  rw [hnil] at hname
  cases hname

end PgSteward
