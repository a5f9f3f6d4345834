import PgSteward.Postgres.Statement
import PgSteward.Proofs.SpacedWords

/-!
# Reading literals

A text is read from left to right: a quote opens a literal, two quotes inside a literal stand for
one, and a single quote closes it.  A text is sealed for a password when it can be read to its end
in this way, each of its literals stands for the password or for `infinity`, and nothing but names,
commas and spaces is outside.  Whatever a password holds, a statement is sealed for it
(`Statement.sealed_text`).
-/

namespace PgSteward

/-- What is read out of a text. -/
structure LiteralReading where
  /-- The characters outside of the literals. -/
  outside : List Char := []
  /-- What the literals stand for. -/
  literals : List String := []
deriving DecidableEq

namespace LiteralReading

mutual

/-- Reads on outside of a literal. -/
def readOutside : List Char → Option LiteralReading
  | [] => some {}
  | '\'' :: cs => readInside [] cs
  | c :: cs => (readOutside cs).map fun r => { r with outside := c :: r.outside }

/-- Reads on in a literal of which some characters have been read.  There is no reading of a text
that ends in a literal. -/
def readInside (read : List Char) : List Char → Option LiteralReading
  | [] => none
  | '\'' :: '\'' :: cs => readInside (read ++ ['\'']) cs
  | '\'' :: cs =>
      (readOutside cs).map fun r => { r with literals := String.ofList read :: r.literals }
  | c :: cs => readInside (read ++ [c]) cs

end

/-- What is read out of a text, if no literal is left open. -/
def of? (text : String) : Option LiteralReading := readOutside text.toList

example : of? "ALTER ROLE a PASSWORD 'it''s'" =
    some ⟨"ALTER ROLE a PASSWORD ".toList, ["it's"]⟩ := by
  decide +kernel

example : of? "ALTER ROLE a PASSWORD 'it''" = none := by decide +kernel

variable {c : Char} {cs w read : List Char}

theorem readOutside_cons (hc : c ≠ '\'') :
    readOutside (c :: cs) =
      (readOutside cs).map fun r => { r with outside := c :: r.outside } := by
  rw [readOutside]
  exact fun h => hc h

theorem readInside_cons (hc : c ≠ '\'') :
    readInside read (c :: cs) = readInside (read ++ [c]) cs := by
  rw [readInside]
  · exact fun _ h => absurd h hc
  · exact fun h => hc h

/-- A quote that no other follows closes a literal. -/
theorem readInside_quote (h : cs.head? ≠ some '\'') :
    readInside read ('\'' :: cs) =
      (readOutside cs).map fun r => { r with literals := String.ofList read :: r.literals } := by
  rw [readInside]
  rintro ds rfl
  exact h rfl

/-- A text whose quotes have been doubled is read in a literal as it was. -/
theorem readInside_doubled (h : cs.head? ≠ some '\'') :
    readInside read (w.flatMap Text.doubledChar ++ '\'' :: cs) =
      (readOutside cs).map fun r =>
        { r with literals := String.ofList (read ++ w) :: r.literals } := by
  induction w generalizing read with
  | nil => simpa using readInside_quote h
  | cons c w ih =>
      rw [List.flatMap_cons, Text.doubledChar]
      by_cases hc : c = '\''
      · subst hc
        show readInside read ('\'' :: '\'' :: (w.flatMap Text.doubledChar ++ '\'' :: cs)) = _
        rw [readInside, ih, List.append_assoc]
        rfl
      · rw [if_neg hc]
        show readInside read (c :: (w.flatMap Text.doubledChar ++ '\'' :: cs)) = _
        rw [readInside_cons hc, ih, List.append_assoc]
        rfl

/-- Characters that are no quotes are read as they are. -/
theorem readOutside_append (h : '\'' ∉ w) :
    readOutside (w ++ cs) = (readOutside cs).map fun r => { r with outside := w ++ r.outside } := by
  induction w with
  | nil => simp
  | cons c w ih =>
      rw [List.mem_cons, not_or] at h
      rw [List.cons_append, readOutside_cons (Ne.symm h.1), ih h.2, Option.map_map]
      rfl

/-- A text without a quote is read as it is. -/
theorem of?_append {a : String} (h : '\'' ∉ a.toList) (b : String) :
    of? (a ++ b) = (of? b).map fun r => { r with outside := a.toList ++ r.outside } := by
  rw [of?, String.toList_append, readOutside_append h]
  rfl

/-- A literal is read as what it stands for, unless a quote follows. -/
theorem of?_literal_append (w : String) {b : String} (h : b.toList.head? ≠ some '\'') :
    of? (literal w ++ b) = (of? b).map fun r => { r with literals := w :: r.literals } := by
  have htext : (literal w ++ b).toList =
      '\'' :: (w.toList.flatMap Text.doubledChar ++ '\'' :: b.toList) := by
    simp [literal, Text.singleQuoted]
  rw [of?, htext, readOutside, readInside_doubled h, List.nil_append, String.ofList_toList]
  rfl

end LiteralReading

/-! ## Sealed texts -/

/-- Whether a character may stand outside of a literal. -/
def isOutsideChar (c : Char) : Bool := c.isAlphanum || c = '_' || c = ',' || c = ' '

/-- Whether all characters of a text may stand outside of a literal. -/
def IsBare (text : String) : Prop := ∀ c ∈ text.toList, isOutsideChar c = true

instance (text : String) : Decidable (IsBare text) :=
  decidable_of_iff (text.toList.all isOutsideChar = true) List.all_eq_true

/-- Whether a text holds no other literal than a password, if there is one, and `infinity`, and
nothing but names, commas and spaces besides. -/
def Sealed (password : Option String) (text : String) : Prop :=
  ∃ r, LiteralReading.of? text = some r ∧
    (∀ literal ∈ r.literals, literal = "infinity" ∨ some literal = password) ∧
    ∀ c ∈ r.outside, isOutsideChar c = true

section Sealed

variable {a b w : String} {password : Option String}

theorem isBare_append : IsBare (a ++ b) ↔ IsBare a ∧ IsBare b := by
  simp only [IsBare, String.toList_append, List.forall_mem_append]

theorem Identifier.isBare (i : Identifier) : IsBare i.name := by
  intro c hc
  have hname := i.isNameChar_of_mem hc
  rw [isNameChar] at hname
  simp only [isOutsideChar, hname, Bool.true_or]

theorem sealed_empty (password : Option String) : Sealed password "" := ⟨{}, rfl, by simp, by simp⟩

theorem IsBare.quote_not_mem (h : IsBare a) : '\'' ∉ a.toList := fun hmem =>
  absurd (h _ hmem) (by decide)

theorem Sealed.bare_append (ha : IsBare a) (hb : Sealed password b) : Sealed password (a ++ b) := by
  obtain ⟨r, hread, hliterals, houtside⟩ := hb
  refine ⟨{ r with outside := a.toList ++ r.outside }, ?_, hliterals,
    List.forall_mem_append.mpr ⟨ha, houtside⟩⟩
  rw [LiteralReading.of?_append ha.quote_not_mem, hread]
  rfl

theorem IsBare.sealed (h : IsBare a) : Sealed password a := by
  have happend := Sealed.bare_append h (sealed_empty password)
  rwa [String.append_empty] at happend

/-- A text that is sealed for no password is sealed for every one. -/
theorem Sealed.of_none (h : Sealed none a) : Sealed password a := by
  obtain ⟨r, hread, hliterals, houtside⟩ := h
  refine ⟨r, hread, fun w hw => .inl ?_, houtside⟩
  exact (hliterals w hw).resolve_right nofun

/-- A literal in front of a sealed text is read as what it stands for, unless the text starts with a
quote. -/
theorem Sealed.literal_append (hw : w = "infinity" ∨ some w = password)
    (hb : Sealed password b) (hhead : b.toList.head? ≠ some '\'') :
    Sealed password (literal w ++ b) := by
  obtain ⟨r, hread, hliterals, houtside⟩ := hb
  refine ⟨{ r with literals := w :: r.literals }, ?_,
    List.forall_mem_cons.mpr ⟨hw, hliterals⟩, houtside⟩
  rw [LiteralReading.of?_literal_append w hhead, hread]
  rfl

end Sealed

/-! ## Statements -/

namespace Statement

/-- Whether a statement holds no other password than one. -/
def Carries (password : Option String) : Statement → Prop
  | .createRole _ _ given _ => ∀ w ∈ given, some w = password
  | .setPassword _ given | .alterService _ given => some given = password
  | _ => True

theorem isBare_listText (names : List Identifier) : IsBare (listText names) := by
  unfold listText
  induction names with
  | nil => decide
  | cons i rest ih =>
      cases rest with
      | nil => simpa using i.isBare
      | cons j more =>
          have hcomma : IsBare ", " := by decide
          rw [List.map_cons, List.map_cons, String.intercalate_cons_cons, isBare_append,
            isBare_append]
          exact ⟨⟨i.isBare, hcomma⟩, ih⟩

theorem isBare_rolesText (roles : List Identifier) : IsBare (rolesText roles) := by
  unfold rolesText
  split
  · decide
  · exact isBare_append.mpr ⟨by decide, isBare_listText roles⟩

theorem head?_rolesText (roles : List Identifier) :
    (rolesText roles).toList.head? ≠ some '\'' := by
  unfold rolesText
  split
  · decide
  · simp

/-- The role and the password that a statement sets for it. -/
def setsPassword? : Statement → Option (String × String)
  | .createRole role _ given _ => given.map fun password => (role.name, password)
  | .setPassword role password | .alterService role password => some (role.name, password)
  | _ => none

/-- The text of a statement that sets no password holds no literal. -/
theorem isBare_text {st : Statement} (h : st.setsPassword? = none) : IsBare st.text := by
  unfold text
  cases st with
  | createRole role login given roles =>
      obtain rfl := Option.map_eq_none_iff.mp h
      dsimp only
      rw [passwordText, String.append_empty, isBare_append]
      refine ⟨?_, isBare_rolesText roles⟩
      cases login <;> simp [isBare_append, toString, role.isBare] <;> decide
  | setPassword => cases h
  | alterService => cases h
  | grantTables privileges schema role =>
      have hprivileges : IsBare privileges.sql := by cases privileges <;> decide
      simp [isBare_append, toString, Identifier.isBare, hprivileges]
      decide
  | _ =>
      simp [isBare_append, toString, Identifier.isBare, isBare_listText]
      decide

/-- How a text sets a password for a role. -/
structure Sets (text role password verb options rest : String) : Prop where
  text_eq : text = s!"{verb} ROLE {role} WITH {options}PASSWORD " ++ (literal password ++ rest)
  verb_mem : verb ∈ ["CREATE", "ALTER"]
  options_mem : options ∈ ["", "LOGIN ", "NOLOGIN "]
  isName : PgSteward.isName role = true
  head_ne : rest.toList.head? ≠ some '\''
  sealed_rest : Sealed none rest

/-- A statement that sets a password has a text that does. -/
theorem exists_sets {st : Statement} {role password : String}
    (h : st.setsPassword? = some (role, password)) :
    ∃ verb options rest, Sets st.text role password verb options rest := by
  unfold text
  cases st with
  | createRole i login given roles =>
      obtain ⟨w, rfl, hw⟩ := Option.map_eq_some_iff.mp h
      cases hw
      refine ⟨"CREATE", if login then "LOGIN " else "NOLOGIN ", rolesText roles,
        ⟨?_, by decide, ?_, i.isName, head?_rolesText roles, (isBare_rolesText roles).sealed⟩⟩
      · refine String.toList_inj.mp ?_
        cases login <;> simp [passwordText, toString]
      · cases login <;> decide
  | setPassword i w =>
      cases h
      refine ⟨"ALTER", "", "", ⟨String.toList_inj.mp ?_, by decide, by decide, i.isName, by decide,
        sealed_empty none⟩⟩
      simp [toString]
  | alterService i w =>
      cases h
      have hend : Sealed none (" VALID UNTIL " ++ (literal "infinity" ++ " NOCREATEROLE")) :=
        Sealed.bare_append (by decide)
          ((IsBare.sealed (by decide)).literal_append (.inl rfl) (by decide))
      refine ⟨"ALTER", "LOGIN ", _, ⟨String.toList_inj.mp ?_, by decide, by decide, i.isName,
        by decide, hend⟩⟩
      simp [toString]
      rfl
  | _ => cases h

/-- In front of the password is nothing but names and spaces. -/
theorem Sets.isBare {text role password verb options rest : String}
    (h : Sets text role password verb options rest) :
    IsBare s!"{verb} ROLE {role} WITH {options}PASSWORD " := by
  have hverb : IsBare verb := by
    have := h.verb_mem
    simp only [List.mem_cons, List.not_mem_nil, or_false] at this
    obtain rfl | rfl := this <;> decide
  have hoptions : IsBare options := by
    have := h.options_mem
    simp only [List.mem_cons, List.not_mem_nil, or_false] at this
    obtain rfl | rfl | rfl := this <;> decide
  have hrole : IsBare role := Identifier.isBare ⟨role, h.isName⟩
  simp [isBare_append, toString, hverb, hoptions, hrole]
  decide

theorem carries_iff {password : Option String} {st : Statement} :
    st.Carries password ↔ ∀ given ∈ st.setsPassword?, some given.2 = password := by
  cases st <;> simp [Carries, setsPassword?]

/-- The text of a statement is sealed for the password in it. -/
theorem sealed_text {password : Option String} {st : Statement} (h : st.Carries password) :
    Sealed password st.text := by
  cases hsets : st.setsPassword? with
  | none => exact (isBare_text hsets).sealed
  | some given =>
      obtain ⟨verb, options, rest, hparts⟩ := exists_sets hsets
      have hgiven := carries_iff.mp h given hsets
      rw [hparts.text_eq]
      exact Sealed.bare_append hparts.isBare
        (hparts.sealed_rest.of_none.literal_append (.inr hgiven) hparts.head_ne)

end Statement

end PgSteward
