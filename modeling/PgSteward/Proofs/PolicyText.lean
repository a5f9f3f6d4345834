import PgSteward.Policy.Reader
import PgSteward.Proofs.EncodedBytes
import PgSteward.Proofs.NameMaps
import PgSteward.Proofs.PrintedJson

/-!
# Documents and their texts

The text of a policy document is read back as the document, and so is every text that has some of
its bytes percent encoded (`PolicyDocument.ofText_of_writing`).  Each scanner of a part reads what
the printer makes of the part: `reads_textsValue`, `reads_textMapValue`, `reads_patternsValue`,
`reads_statementValue` and `reads_documentValue`, in the order in which the parts are nested.
-/

namespace PgSteward

open Json (Reads ReadsMembers)

namespace NameMap

variable {α : Type}

/-- A map is the map of its pairs. -/
theorem ofPairs_toList (m : NameMap α) : ofPairs m.toList = m := by
  apply Std.ExtTreeMap.ext_getElem?
  intro name
  cases hname : m[name]? with
  | some a =>
      have hmem : (name, a) ∈ m.toList := Std.ExtTreeMap.mem_toList_iff_getElem?_eq_some.mpr hname
      refine getElem?_foldl_insert_of_mem hmem ?_
      rintro ⟨other, b⟩ hother rfl
      have hb := Std.ExtTreeMap.mem_toList_iff_getElem?_eq_some.mp hother
      rw [hname] at hb
      cases hb
      rfl
  | none =>
      rw [ofPairs, getElem?_foldl_insert_of_ne]
      · simp
      · rintro ⟨other, b⟩ hother rfl
        rw [Std.ExtTreeMap.mem_toList_iff_getElem?_eq_some.mp hother] at hname
        cases hname

end NameMap

variable {α σ : Type}

theorem reads_into {value : Json.Scanner α} {text : List Char} {a : α} (h : Reads value text a)
    (put : α → σ) : Reads (into value put) text (put a) where
  starts := h.starts
  takes rest := by simp [into, bind, Except.bind, pure, Except.pure, h.takes]

/-- A list of texts is read as the texts. -/
theorem reads_textsValue (texts : List String) :
    Reads textsValue (Json.ofTexts texts).print texts :=
  Json.reads_listValue fun s _ => Json.reads_textValue s

/-- The members of a map are put into it one after the other. -/
theorem readsMembers_textMap (pairs : List (String × String)) (seen : NameMap String) :
    ReadsMembers Json.anyName
      (fun name seen => into Json.textValue fun value => seen.insert name value) seen
      (pairs.map fun p => (p.1, .text p.2)) (pairs.foldl (fun m p => m.insert p.1 p.2) seen) := by
  induction pairs generalizing seen with
  | nil => exact .nil seen
  | cons p pairs ih =>
      have hvalue := reads_into (Json.reads_textValue p.2) fun value => seen.insert p.1 value
      exact .cons rfl hvalue (ih (seen.insert p.1 p.2))

/-- The object of a map is read as the map. -/
theorem reads_textMapValue (m : NameMap String) :
    Reads textMapValue (Json.object (m.toList.map fun p => (p.1, .text p.2))).print m := by
  have h := Json.reads_object (readsMembers_textMap m.toList ∅)
  have hpairs : m.toList.foldl (fun m p => m.insert p.1 p.2) ∅ = m := m.ofPairs_toList
  rwa [hpairs] at h

/-- The patterns of a statement are read back. -/
theorem reads_patternsValue (patterns : NameMap String) :
    Reads patternsValue (PolicyStatement.encodePatterns patterns).print patterns := by
  have hmap := reads_into (reads_textMapValue patterns) some
  exact Json.reads_structure (.cons rfl hmap (.nil _)) rfl

/-- A statement is read back. -/
theorem reads_statementValue (s : PolicyStatement) : Reads statementValue s.encode.print s := by
  have heffect : Reads (StatementMembers.step "Effect" {}) (Json.text s.effect).print
      { effect := some s.effect } := by
    simp only [StatementMembers.step, if_true]
    exact reads_into (Json.reads_textValue s.effect) _
  have haction : Reads (StatementMembers.step "Action" { effect := some s.effect })
      (Json.ofTexts s.action).print { effect := some s.effect, action := some s.action } := by
    simp only [StatementMembers.step, String.reduceEq, if_false, if_true]
    exact reads_into (reads_textsValue s.action) _
  have hresource : Reads
      (StatementMembers.step "Resource" { effect := some s.effect, action := some s.action })
      (Json.ofTexts s.resource).print
      { effect := some s.effect, action := some s.action, resource := some s.resource } := by
    simp only [StatementMembers.step, String.reduceEq, if_false, if_true]
    exact reads_into (reads_textsValue s.resource) _
  have hpatterns : Reads
      (StatementMembers.step "Condition"
        { effect := some s.effect, action := some s.action, resource := some s.resource })
      (PolicyStatement.encodePatterns s.patterns).print
      ⟨some s.effect, some s.action, some s.resource, some s.patterns⟩ := by
    simp only [StatementMembers.step, String.reduceEq, if_false, if_true]
    exact reads_into (reads_patternsValue s.patterns) _
  exact Json.reads_structure
    (.cons rfl heffect (.cons rfl haction (.cons rfl hresource (.cons rfl hpatterns (.nil _))))) rfl

/-- A document is read back. -/
theorem reads_documentValue (d : PolicyDocument) : Reads documentValue d.encode.print d := by
  have hversion : Reads (DocumentMembers.step "Version" {}) (Json.text d.version).print
      { version := some d.version } := by
    simp only [DocumentMembers.step, if_true]
    exact reads_into (Json.reads_textValue d.version) _
  have hstatements : Reads (DocumentMembers.step "Statement" { version := some d.version })
      (Json.list (d.statements.map PolicyStatement.encode)).print
      ⟨some d.version, some d.statements⟩ := by
    simp only [DocumentMembers.step, String.reduceEq, if_false, if_true]
    exact reads_into (Json.reads_listValue fun s _ => reads_statementValue s) _
  exact Json.reads_structure (.cons rfl hversion (.cons rfl hstatements (.nil _))) rfl

namespace PolicyDocument

/-- The text of a document is read as the document. -/
theorem read_print (d : PolicyDocument) : read d.encode.print = .ok d := by
  have h := (reads_documentValue d).takes []
  rw [List.append_nil] at h
  simp only [read, h, bind, Except.bind]
  rfl

/-- A document is read from every writing of its text, whichever bytes are percent encoded. -/
theorem ofText_of_writing (policy : String) (d : PolicyDocument) (text : String)
    (h : Text.PercentWriting (Text.toUtf8 d.text.toList) (Text.toUtf8 text.toList)) :
    ofText policy text = .ok d := by
  rw [ofText, Text.percentDecode_of_writing h, Text.ofUtf8_toUtf8]
  simp only [PolicyDocument.text, Json.compact, String.toList_ofList, read_print]
  rfl

/-- A document with quotes, controls, plus and percent signs and characters of every width. -/
def assortedDocument : PolicyDocument where
  version := "100%2B"
  statements := [{
    effect := "\"\\\x01"
    action := ["a+b", ""]
    resource := ["é", "☃", "𝄞"]
    patterns := NameMap.ofPairs [(PolicyStatement.userKey, "*:u%"), ("\n", "\x7f")] }]

/-- Its text with everything encoded but letters and digits. -/
def assortedText : String :=
  "%7b%22Version%22%3a%22100%252B%22%2c%22Statement%22%3a%5b%7b%22Effect%22%3a%22%5c%22%5c%5c" ++
    "%5cu0001%22%2c%22Action%22%3a%5b%22a%2bb%22%2c%22%22%5d%2c%22Resource%22%3a%5b%22%c3%a9%22" ++
    "%2c%22%e2%98%83%22%2c%22%f0%9d%84%9e%22%5d%2c%22Condition%22%3a%7b%22StringLike%22%3a%7b" ++
    "%22%5cn%22%3a%22%7f%22%2c%22aws%3auserid%22%3a%22%2a%3au%25%22%7d%7d%7d%5d%7d"

theorem ofText_assortedText :
    Text.PercentWriting (Text.toUtf8 assortedDocument.text.toList)
        (Text.toUtf8 assortedText.toList) ∧
      ofText "p" assortedText = .ok assortedDocument := by
  have hwriting : Text.PercentWriting (Text.toUtf8 assortedDocument.text.toList)
      (Text.toUtf8 assortedText.toList) := by
    have htext : Text.toUtf8 assortedText.toList =
        Text.percentEncode (fun b => (Char.ofNat b.toNat).isAlphanum) false
          (Text.toUtf8 assortedDocument.text.toList) := by
      decide +kernel
    rw [htext]
    exact Text.percentEncode_writing ..
  exact ⟨hwriting, ofText_of_writing "p" assortedDocument assortedText hwriting⟩

end PolicyDocument

end PgSteward
