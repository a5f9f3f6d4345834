import PgSteward.Text.Printable

/-!
# Quoted text

A name that is refused appears in its message between double quotes, with every character that
could be misread written as an escape: the quote and the backslash, the line breaks, the tab and
the null character by a letter, the characters without a shape and the marks that attach to their
neighbour by their number in braces.

`quoted_of_plain` says that a text of shown characters appears as it is.
-/

namespace PgSteward.Text

/-- The digits of a number to the base sixteen, in lower case. -/
def hexDigits (n : Nat) : List Char := Nat.toDigits 16 n

/-- The escape of a character by its number. -/
def numberEscape (c : Char) : List Char :=
  ['\\', 'u', '\x7b'] ++ hexDigits c.toNat ++ ['\x7d']

/-- A character as it appears between double quotes. -/
def quotedChar (c : Char) : List Char :=
  if c = '"' then ['\\', '"']
  else if c = '\\' then ['\\', '\\']
  else if c = '\n' then ['\\', 'n']
  else if c = '\r' then ['\\', 'r']
  else if c = '\t' then ['\\', 't']
  else if c = '\x00' then ['\\', '0']
  else if isExtender c || !isPrintable c then numberEscape c
  else [c]

/-- A text between double quotes. -/
def quoted (s : String) : String :=
  String.ofList ('"' :: s.toList.flatMap quotedChar ++ ['"'])

/-- A character that appears as it is between double quotes. -/
def isPlain (c : Char) : Bool :=
  isPrintable c && !isExtender c && c != '"' && c != '\\'

theorem quotedChar_of_plain {c : Char} (h : isPlain c = true) : quotedChar c = [c] := by
  simp only [isPlain, Bool.and_eq_true, Bool.not_eq_true', bne_iff_ne] at h
  obtain ⟨⟨⟨hp, he⟩, hq⟩, hb⟩ := h
  have hn : c ≠ '\n' := fun e => by subst e; revert hp; decide
  have hr : c ≠ '\r' := fun e => by subst e; revert hp; decide
  have ht : c ≠ '\t' := fun e => by subst e; revert hp; decide
  have hz : c ≠ '\x00' := fun e => by subst e; revert hp; decide
  simp [quotedChar, hq, hb, hn, hr, ht, hz, hp, he]

/-- A text of plain characters only gains the two quotes. -/
theorem quoted_of_plain {s : String} (h : ∀ c ∈ s.toList, isPlain c = true) :
    quoted s = String.ofList ('"' :: s.toList ++ ['"']) := by
  have : ∀ cs : List Char, (∀ c ∈ cs, isPlain c = true) → cs.flatMap quotedChar = cs := by
    intro cs
    induction cs with
    | nil => intro _; rfl
    | cons c cs ih =>
        intro hc
        rw [List.flatMap_cons, quotedChar_of_plain (hc c (List.mem_cons_self ..)),
          ih fun d hd => hc d (List.mem_cons_of_mem _ hd)]
        rfl
  rw [quoted, this _ h]

example : quoted "a\u0301\u200b\x7f" = "\"a\\u\x7b301\x7d\\u\x7b200b\x7d\\u\x7b7f\x7d\"" := by
  decide +kernel

example : quoted "it's \"é\"\n" = "\"it's \\\"é\\\"\\n\"" := by decide +kernel

end PgSteward.Text
