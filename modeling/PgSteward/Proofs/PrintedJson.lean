import Mathlib.Tactic.IntervalCases
import PgSteward.Json.Printer
import PgSteward.Json.Reader

/-!
# Reading what the printer wrote

A scanner *reads* a text as a value when it takes the text off the front of whatever follows it.
The scanner of a text reads every literal as the text between the quotes (`reads_textValue`), the
scanner of a list reads what its items read (`reads_listValue`), and an object is read by a chain
of members, each from the state that the members before it have left (`ReadsMembers`,
`objectBody_of_readsMembers`).

With these a scanner of a fixed structure is followed member by member, and no proof unfolds the
loops.
-/

namespace PgSteward.Json

variable {α σ : Type}

/-! ## Texts -/

theorem hexDigit?_hexDigit (n : Nat) : Text.hexDigit? (hexDigit n) = some (n % 16) := by
  rw [hexDigit]
  have hdigit : n % 16 < 16 := Nat.mod_lt _ (by decide)
  generalize n % 16 = d at hdigit
  interval_cases d <;> decide

/-- The four digits of a control character are its number. -/
theorem scanCode_controlEscape {n : Nat} (h : n < 0x20) (rest : List Char) :
    scanCode ('0' :: '0' :: hexDigit (n / 16) :: hexDigit n :: rest) = .ok (n, rest) := by
  have hzero : Text.hexDigit? '0' = some 0 := by decide
  have hvalue : 0 * 4096 + 0 * 256 + n / 16 % 16 * 16 + n % 16 = n := by omega
  have hcode : hexCode? '0' '0' (hexDigit (n / 16)) (hexDigit n) = some n := by
    simp only [hexCode?, hzero, hexDigit?_hexDigit, Option.bind_eq_bind, Option.bind_some, hvalue]
  rw [scanCode, hcode]

theorem scanEscape_of_letter {letter c : Char} (hletter : letterEscape? letter = some c)
    (hu : letter ≠ 'u') (rest : List Char) : scanEscape (letter :: rest) = .ok (c, rest) := by
  rw [scanEscape, if_neg hu, hletter]

/-- The number of a control character stands for it after a backslash. -/
theorem scanEscape_controlEscape {c : Char} (h : c.toNat < 0x20) (rest : List Char) :
    scanEscape ('u' :: '0' :: '0' :: hexDigit (c.toNat / 16) :: hexDigit c.toNat :: rest) =
      .ok (c, rest) := by
  have htail : isTailHalf c.toNat = false := by simp [isTailHalf]; omega
  have hlead : isLeadHalf c.toNat = false := by simp [isLeadHalf]; omega
  rw [scanEscape, if_pos rfl, scanCode_controlEscape h]
  simp only [htail, hlead, Bool.false_eq_true, if_false, Char.ofNat_toNat]

theorem scanText_of_escape {cs rest : List Char} {c : Char} (h : scanEscape cs = .ok (c, rest)) :
    scanText ('\\' :: cs) = (scanText rest).map fun found => (c :: found.1, found.2) := by
  rw [scanText, if_neg (by decide), if_pos rfl]
  split
  next hescape =>
    rw [h] at hescape
    cases hescape
  next hescape =>
    rw [h] at hescape
    cases hescape
    cases scanText rest <;> rfl

theorem scanText_of_plain {c : Char} (hquote : c ≠ '"') (hslash : c ≠ '\\')
    (hcontrol : ¬ c.toNat < 0x20) (cs : List Char) :
    scanText (c :: cs) = (scanText cs).map fun found => (c :: found.1, found.2) := by
  rw [scanText, if_neg hquote, if_neg hslash, if_neg hcontrol]
  cases scanText cs <;> rfl

/-- A character stands in a text as a letter after a backslash, as its number or as itself. -/
theorem escapedChar_cases (c : Char) :
    (∃ letter, escapedChar c = ['\\', letter] ∧ letter ≠ 'u' ∧ letterEscape? letter = some c) ∨
      (escapedChar c = controlEscape c ∧ c.toNat < 0x20) ∨
      (escapedChar c = [c] ∧ c ≠ '"' ∧ c ≠ '\\' ∧ ¬ c.toNat < 0x20) := by
  unfold escapedChar
  iterate 7
    split
    next h => exact .inl ⟨_, rfl, by decide, by rw [h]; decide⟩
  split
  next hcontrol => exact .inr (.inl ⟨rfl, hcontrol⟩)
  next hquote hslash _ _ _ _ _ hcontrol => exact .inr (.inr ⟨rfl, hquote, hslash, hcontrol⟩)

/-- A character is taken off in the form in which it stands in a text. -/
theorem scanText_escapedChar (c : Char) (cs : List Char) :
    scanText (escapedChar c ++ cs) = (scanText cs).map fun found => (c :: found.1, found.2) := by
  obtain ⟨letter, hc, hu, hletter⟩ | ⟨hc, hcontrol⟩ | ⟨hc, hquote, hslash, hcontrol⟩ :=
    escapedChar_cases c
  · rw [hc]
    exact scanText_of_escape (scanEscape_of_letter hletter hu cs)
  · rw [hc]
    exact scanText_of_escape (scanEscape_controlEscape hcontrol cs)
  · rw [hc]
    exact scanText_of_plain hquote hslash hcontrol cs

/-- The characters between the quotes of a literal are those of its text. -/
theorem scanText_escaped (cs rest : List Char) :
    scanText (cs.flatMap escapedChar ++ '"' :: rest) = .ok (cs, rest) := by
  induction cs with
  | nil => rw [List.flatMap_nil, List.nil_append, scanText, if_pos rfl]
  | cons c cs ih =>
      rw [List.flatMap_cons, List.append_assoc, scanText_escapedChar, ih]
      rfl

/-! ## Values -/

/-- A text starts as the text of a value does: with no blank, and not with the end of a list. -/
def StartsValue (text : List Char) : Prop := ∃ c cs, text = c :: cs ∧ isSpace c = false ∧ c ≠ ']'

/-- The scanner takes all of the text and gives the value, whatever follows. -/
structure Reads (value : Scanner α) (text : List Char) (a : α) : Prop where
  starts : StartsValue text
  takes : ∀ rest, value (text ++ rest) = .ok (a, rest)

theorem skipSpace_cons {c : Char} (h : isSpace c = false) (cs : List Char) :
    skipSpace (c :: cs) = c :: cs := by
  simp [skipSpace, h]

theorem opened_start {start : Char} (h : isSpace start = false) (body : Scanner α)
    (cs : List Char) : opened start body (start :: cs) = body cs := by
  simp [opened, skipSpace_cons h]

/-- A literal is read as its text. -/
theorem reads_textValue (s : String) : Reads textValue (Json.text s).print s where
  starts := ⟨'"', _, rfl, by decide, by decide⟩
  takes rest := by
    have htext := scanText_escaped s.toList rest
    rw [textValue, print, textLiteral, List.cons_append, List.cons_append, opened_start (by decide),
      List.append_assoc, List.singleton_append, htext]
    simp [bind, Except.bind, pure, Except.pure]

/-! ## Lists -/

/-- Every part with a comma in front has at least one character. -/
theorem length_le_commas {β : Type} (bs : List β) (part : β → List Char) :
    bs.length ≤ (bs.flatMap fun b => ',' :: part b).length := by
  induction bs with
  | nil => exact Nat.zero_le _
  | cons b bs ih =>
      rw [List.flatMap_cons, List.length_append, List.length_cons, List.length_cons]
      omega

/-- After the first item every item has a comma in front. -/
theorem printItems_cons (j : Json) (js : List Json) :
    printItems (j :: js) = j.print ++ js.flatMap fun i => ',' :: i.print := by
  induction js generalizing j with
  | nil => simp [printItems]
  | cons i rest ih => rw [printItems, ih, List.flatMap_cons, List.cons_append]; simp

theorem nextItem_first {text : List Char} (h : StartsValue text) (rest : List Char) :
    nextItem true (text ++ rest) = .ok (true, text ++ rest) := by
  obtain ⟨c, cs, rfl, hspace, hclose⟩ := h
  simp [nextItem, skipSpace_cons hspace, hclose]

theorem nextItem_comma {text : List Char} (h : StartsValue text) (rest : List Char) :
    nextItem false (',' :: (text ++ rest)) = .ok (true, text ++ rest) := by
  obtain ⟨c, cs, rfl, hspace, hclose⟩ := h
  simp [nextItem, skipSpace_cons (c := ',') (by decide), skipSpace_cons hspace, hclose]

section Items

variable {β : Type} {item : Scanner α} {encode : β → Json} {value : β → α}

/-- The loop takes one item off and goes on. -/
theorem scanItems_step {turns : Nat} {first : Bool} {cs text rest rest' : List Char} {a : α}
    {as : List α} (hnext : nextItem first cs = .ok (true, text ++ rest))
    (hitem : Reads item text a) (hrest : scanItems item turns false rest = .ok (as, rest')) :
    scanItems item (turns + 1) first cs = .ok (a :: as, rest') := by
  simp only [scanItems, bind, Except.bind, hnext, if_true, hitem.takes, hrest]
  rfl

/-- The items after the first, each with its comma. -/
theorem scanItems_rest {bs : List β} (h : ∀ b ∈ bs, Reads item (encode b).print (value b))
    {turns : Nat} (hturns : bs.length ≤ turns) (rest : List Char) :
    scanItems item (turns + 1) false
        ((bs.map encode).flatMap (fun j => ',' :: j.print) ++ ']' :: rest) =
      .ok (bs.map value, rest) := by
  induction bs generalizing turns with
  | nil => rfl
  | cons b bs ih =>
      obtain ⟨turns, rfl⟩ : ∃ n, turns = n + 1 := Nat.exists_eq_add_one_of_ne_zero (by
        rw [List.length_cons] at hturns
        omega)
      have hfirst := h b (List.mem_cons_self ..)
      have hrest := ih (fun c hc => h c (List.mem_cons_of_mem _ hc)) (Nat.le_of_succ_le_succ hturns)
      rw [List.map_cons, List.flatMap_cons, List.append_assoc, List.cons_append]
      exact scanItems_step (nextItem_comma hfirst.starts _) hfirst hrest

/-- The items of a list are read one after the other. -/
theorem scanItems_of_reads {bs : List β} (h : ∀ b ∈ bs, Reads item (encode b).print (value b))
    (rest : List Char) :
    scanItems item ((printItems (bs.map encode) ++ ']' :: rest).length + 1) true
        (printItems (bs.map encode) ++ ']' :: rest) = .ok (bs.map value, rest) := by
  cases bs with
  | nil => rfl
  | cons b bs =>
      have hfirst := h b (List.mem_cons_self ..)
      rw [List.map_cons, printItems_cons, List.append_assoc]
      -- every item takes at least its comma, so there are enough turns
      obtain ⟨turns, hlength⟩ : ∃ n, ((encode b).print ++ ((bs.map encode).flatMap
          (fun j => ',' :: j.print) ++ ']' :: rest)).length = n + 1 :=
        ⟨_, by rw [List.length_append, List.length_append, List.length_cons]; rfl⟩
      have hturns : bs.length ≤ turns := by
        have hcommas := length_le_commas (bs.map encode) print
        simp only [List.length_append, List.length_cons, List.length_map] at hlength hcommas
        omega
      rw [hlength]
      exact scanItems_step (nextItem_first hfirst.starts _) hfirst
        (scanItems_rest (fun c hc => h c (List.mem_cons_of_mem _ hc)) hturns rest)

/-- A list is read as its items. -/
theorem reads_listValue {encode : α → Json} {as : List α}
    (h : ∀ a ∈ as, Reads item (encode a).print a) :
    Reads (listValue item) (Json.list (as.map encode)).print as where
  starts := ⟨'[', _, rfl, by decide, by decide⟩
  takes rest := by
    have hitems : scanItems item ((printItems (as.map encode) ++ ']' :: rest).length + 1) true
        (printItems (as.map encode) ++ ']' :: rest) = .ok (as.map id, rest) :=
      scanItems_of_reads h rest
    rw [List.map_id] at hitems
    rw [listValue, print, List.cons_append, List.cons_append, opened_start (by decide),
      List.append_assoc, List.singleton_append]
    exact hitems

end Items

/-! ## Objects -/

/-- After the first member every member has a comma in front. -/
theorem printMembers_cons (m : String × Json) (ms : JsonMembers) :
    printMembers (m :: ms) = printMember m ++ ms.flatMap fun n => ',' :: printMember n := by
  induction ms generalizing m with
  | nil => simp [printMembers]
  | cons n rest ih => rw [printMembers, ih, List.flatMap_cons, List.cons_append]; simp

/-- The members are read one after the other, from a first state to a last. -/
inductive ReadsMembers (check : String → σ → Except ReadFault Unit)
    (step : String → σ → Scanner σ) : σ → JsonMembers → σ → Prop where
  | nil (seen : σ) : ReadsMembers check step seen [] seen
  /-- A member whose name is not refused takes the state on. -/
  | cons {name : String} {j : Json} {ms : JsonMembers} {seen next last : σ}
      (hcheck : check name seen = .ok ()) (hstep : Reads (step name seen) j.print next)
      (rest : ReadsMembers check step next ms last) :
      ReadsMembers check step seen ((name, j) :: ms) last

theorem scanColon_colon {text : List Char} (h : StartsValue text) (rest : List Char) :
    scanColon (':' :: (text ++ rest)) = .ok (text ++ rest) := by
  obtain ⟨c, cs, rfl, hspace, -⟩ := h
  simp [scanColon, skipSpace_cons (c := ':') (by decide), skipSpace_cons hspace]

theorem printMember_append (name : String) (j : Json) (rest : List Char) :
    printMember (name, j) ++ rest =
      '"' :: (name.toList.flatMap escapedChar ++ '"' :: ':' :: (j.print ++ rest)) := by
  simp [printMember, textLiteral]

section Loop

/-! The loop is followed for every scanner of names that takes a name as some form of it. -/

variable {ν : Type} {form : String → ν} {name : Scanner ν} {check : ν → σ → Except ReadFault Unit}
  {step : ν → σ → Scanner σ}

/-- The loop takes one member off and goes on. -/
theorem scanMembers_step
    (hname : ∀ s rest, name (s.toList.flatMap escapedChar ++ '"' :: rest) = .ok (form s, rest))
    {turns : Nat} {first : Bool} {cs rest rest' : List Char} {s : String} {j : Json}
    {seen next last : σ}
    (hnext : nextMember first cs =
      .ok (true, s.toList.flatMap escapedChar ++ '"' :: ':' :: (j.print ++ rest)))
    (hcheck : check (form s) seen = .ok ()) (hstep : Reads (step (form s) seen) j.print next)
    (hrest : scanMembers name check step turns false next rest = .ok (last, rest')) :
    scanMembers name check step (turns + 1) first seen cs = .ok (last, rest') := by
  simp only [scanMembers, bind, Except.bind, hnext, if_true, hname, hcheck,
    scanColon_colon hstep.starts, hstep.takes, hrest]

/-- The members after the first, each with its comma. -/
theorem scanMembers_rest
    (hname : ∀ s rest, name (s.toList.flatMap escapedChar ++ '"' :: rest) = .ok (form s, rest))
    {seen last : σ} {ms : JsonMembers}
    (h : ReadsMembers (fun s => check (form s)) (fun s => step (form s)) seen ms last) {turns : Nat}
    (hturns : ms.length ≤ turns) (rest : List Char) :
    scanMembers name check step (turns + 1) false seen
        (ms.flatMap (fun m => ',' :: printMember m) ++ '\x7d' :: rest) = .ok (last, rest) := by
  induction h generalizing turns with
  | nil seen => rfl
  | cons hcheck hstep _ ih =>
      obtain ⟨turns, rfl⟩ : ∃ n, turns = n + 1 := Nat.exists_eq_add_one_of_ne_zero (by
        rw [List.length_cons] at hturns
        omega)
      rw [List.flatMap_cons, List.append_assoc, List.cons_append, printMember_append]
      exact scanMembers_step hname rfl hcheck hstep (ih (Nat.le_of_succ_le_succ hturns))

/-- The members of an object are read to the last state. -/
theorem scanMembers_of_readsMembers
    (hname : ∀ s rest, name (s.toList.flatMap escapedChar ++ '"' :: rest) = .ok (form s, rest))
    {seen last : σ} {ms : JsonMembers}
    (h : ReadsMembers (fun s => check (form s)) (fun s => step (form s)) seen ms last)
    (rest : List Char) :
    scanMembers name check step ((printMembers ms ++ '\x7d' :: rest).length + 1) true seen
      (printMembers ms ++ '\x7d' :: rest) = .ok (last, rest) := by
  cases h with
  | nil => rfl
  | @cons s j ms _ next _ hcheck hstep hrest =>
      rw [printMembers_cons, List.append_assoc, printMember_append]
      -- every member takes at least its comma, so there are enough turns
      obtain ⟨turns, hlength⟩ : ∃ n, ('"' :: (s.toList.flatMap escapedChar ++ '"' :: ':' ::
          (j.print ++ (ms.flatMap (fun m => ',' :: printMember m) ++ '\x7d' :: rest)))).length =
            n + 1 := ⟨_, rfl⟩
      have hturns : ms.length ≤ turns := by
        have hcommas := length_le_commas ms printMember
        simp only [List.length_append, List.length_cons] at hlength hcommas
        omega
      rw [hlength]
      exact scanMembers_step hname rfl hcheck hstep (scanMembers_rest hname hrest hturns rest)

end Loop

section Members

variable {check : String → σ → Except ReadFault Unit} {step : String → σ → Scanner σ}

/-- The members of an object are read to the last state. -/
theorem objectBody_of_readsMembers {none last : σ} {ms : JsonMembers}
    (h : ReadsMembers check step none ms last) (rest : List Char) :
    objectBody check step none (printMembers ms ++ '\x7d' :: rest) = .ok (last, rest) := by
  have hname (s : String) (cs : List Char) :
      (scanText (s.toList.flatMap escapedChar ++ '"' :: cs)).map
        (fun found => (String.ofList found.1, found.2)) = .ok (id s, cs) := by
    simp [scanText_escaped, Except.map]
  exact scanMembers_of_readsMembers hname h rest

/-- An object is read as the value that its members are folded into. -/
theorem reads_object {none last : σ} {ms : JsonMembers}
    (h : ReadsMembers check step none ms last) :
    Reads (opened '\x7b' (objectBody check step none)) (Json.object ms).print last where
  starts := ⟨'\x7b', _, rfl, by decide, by decide⟩
  takes rest := by
    rw [print, List.cons_append, List.cons_append, opened_start (by decide), List.append_assoc,
      List.singleton_append]
    exact objectBody_of_readsMembers h rest

/-- A structure that is written by the names of its members is read by them. -/
theorem reads_structure {byPlace : Scanner α} {finish : σ → Except ReadFault α} {none last : σ}
    {ms : JsonMembers} {a : α} (h : ReadsMembers check step none ms last)
    (hfinish : finish last = .ok a) :
    Reads (structureValue (fun cs => do
        let (seen, cs) ← objectBody check step none cs
        return (← finish seen, cs)) byPlace) (Json.object ms).print a where
  starts := ⟨'\x7b', _, rfl, by decide, by decide⟩
  takes rest := by
    rw [print, List.cons_append, List.cons_append, structureValue, List.append_assoc,
      List.singleton_append]
    simp [skipSpace_cons (c := '\x7b') (by decide), objectBody_of_readsMembers h, hfinish, bind,
      Except.bind, pure, Except.pure]

end Members

/-! ## Any value -/

mutual

/-- A value as the parser gives it, with the members of every object in the order of their names. -/
def sorted : Json → Json
  | .list items => .list (sortedItems items)
  | .object ms => .object (sortedMembers [] ms)
  | j => j

/-- The items of a list, each of them sorted. -/
def sortedItems : List Json → List Json
  | [] => []
  | j :: rest => sorted j :: sortedItems rest

/-- The members that have been put in order so far, with more of them. -/
def sortedMembers (seen : JsonMembers) : List (String × Json) → JsonMembers
  | [] => seen
  | m :: rest => sortedMembers (sortedMember seen m) rest

/-- The members that have been put in order so far, with one more. -/
def sortedMember (seen : JsonMembers) : String × Json → JsonMembers
  | (name, j) => seen.putOrdered name (sorted j)

end

/-- A value of texts and booleans, at most so many lists and objects deep, with distinct names. -/
inductive Plain : Nat → Json → Prop where
  | text (depth : Nat) (s : String) : Plain depth (.text s)
  | bool (depth : Nat) (b : Bool) : Plain depth (.bool b)
  | list {depth : Nat} {items : List Json} (h : ∀ j ∈ items, Plain depth j) :
      Plain (depth + 1) (.list items)
  /-- No two members have one name. -/
  | object {depth : Nat} {ms : JsonMembers} (names : (ms.map Prod.fst).Nodup)
      (h : ∀ m ∈ ms, Plain depth m.2) : Plain (depth + 1) (.object ms)

theorem sortedItems_eq_map (items : List Json) : sortedItems items = items.map sorted := by
  induction items with
  | nil => rfl
  | cons j rest ih => rw [sortedItems, ih, List.map_cons]

/-- Takes the value of a member and puts it in order. -/
def putValue (limit : Nat) (name : List Char) (seen : JsonMembers) : Scanner JsonMembers :=
  fun cs => do
    let (j, cs) ← scanValue limit cs
    return (seen.putOrdered (String.ofList name) j, cs)

theorem readsMembers_sorted {limit : Nat} {ms : JsonMembers}
    (h : ∀ m ∈ ms, Reads (scanValue limit) m.2.print m.2.sorted) (seen : JsonMembers) :
    ReadsMembers (fun s => anyName s.toList) (fun s => putValue limit s.toList) seen ms
      (sortedMembers seen ms) := by
  induction ms generalizing seen with
  | nil => exact .nil seen
  | cons m rest ih =>
      obtain ⟨name, j⟩ := m
      have hvalue := h _ (List.mem_cons_self ..)
      refine .cons rfl ⟨hvalue.starts, fun cs => ?_⟩
        (ih (fun n hn => h n (List.mem_cons_of_mem _ hn)) (sortedMember seen (name, j)))
      simp [putValue, hvalue.takes, bind, Except.bind, pure, Except.pure, sortedMember]

/-! What the first character of a value makes of the rest. -/

theorem scanValue_quote (limit : Nat) (cs : List Char) :
    scanValue (limit + 1) ('"' :: cs) =
      (scanText cs).map fun found => (.text (String.ofList found.1), found.2) := by
  change (scanText cs).bind _ = _
  cases scanText cs <;> rfl

theorem scanValue_bracket (limit : Nat) (cs : List Char) :
    scanValue (limit + 2) ('[' :: cs) =
      (scanItems (scanValue (limit + 1)) (cs.length + 1) true cs).map
        fun found => (.list found.1, found.2) := by
  change (scanItems (scanValue (limit + 1)) (cs.length + 1) true cs).bind _ = _
  cases scanItems (scanValue (limit + 1)) (cs.length + 1) true cs <;> rfl

theorem scanValue_brace (limit : Nat) (cs : List Char) :
    scanValue (limit + 2) ('\x7b' :: cs) =
      (scanMembers scanText anyName (putValue (limit + 1)) (cs.length + 1) true [] cs).map
        fun found => (.object found.1, found.2) := by
  change (scanMembers scanText anyName (putValue (limit + 1)) (cs.length + 1) true [] cs).bind _ = _
  cases scanMembers scanText anyName (putValue (limit + 1)) (cs.length + 1) true [] cs <;> rfl

/-- A plain value is read from its text, with its members in order. -/
theorem reads_scanValue {depth : Nat} {j : Json} (h : Plain depth j) {limit : Nat}
    (hlimit : depth < limit) : Reads (scanValue limit) j.print j.sorted := by
  induction h generalizing limit with
  | text _ s =>
      obtain ⟨limit, rfl⟩ : ∃ n, limit = n + 1 := ⟨limit - 1, by omega⟩
      refine ⟨⟨'"', _, rfl, by decide, by decide⟩, fun rest => ?_⟩
      have htext := scanText_escaped s.toList rest
      rw [print, textLiteral, List.cons_append, List.cons_append, List.append_assoc,
        List.singleton_append, scanValue_quote, htext]
      simp [Except.map, sorted]
  | bool _ b =>
      obtain ⟨limit, rfl⟩ : ∃ n, limit = n + 1 := ⟨limit - 1, by omega⟩
      cases b with
      | true => exact ⟨⟨'t', _, rfl, by decide, by decide⟩, fun rest => rfl⟩
      | false => exact ⟨⟨'f', _, rfl, by decide, by decide⟩, fun rest => rfl⟩
  | @list depth items h ih =>
      obtain ⟨limit, rfl⟩ : ∃ n, limit = n + 2 := ⟨limit - 2, by omega⟩
      refine ⟨⟨'[', _, rfl, by decide, by decide⟩, fun rest => ?_⟩
      have hreads : ∀ j ∈ items, Reads (scanValue (limit + 1)) (id j).print j.sorted :=
        fun j hj => ih j hj (by omega)
      have hitems := scanItems_of_reads hreads rest
      rw [List.map_id, ← sortedItems_eq_map] at hitems
      rw [print, List.cons_append, List.cons_append, List.append_assoc, List.singleton_append,
        scanValue_bracket, hitems, sorted]
      rfl
  | @object depth ms _ h ih =>
      obtain ⟨limit, rfl⟩ : ∃ n, limit = n + 2 := ⟨limit - 2, by omega⟩
      refine ⟨⟨'\x7b', _, rfl, by decide, by decide⟩, fun rest => ?_⟩
      have hreads : ∀ m ∈ ms, Reads (scanValue (limit + 1)) m.2.print m.2.sorted :=
        fun m hm => ih m hm (by omega)
      have hmembers : scanMembers scanText anyName (putValue (limit + 1))
          ((printMembers ms ++ '\x7d' :: rest).length + 1) true []
          (printMembers ms ++ '\x7d' :: rest) = .ok (sortedMembers [] ms, rest) :=
        scanMembers_of_readsMembers (fun s rest => scanText_escaped s.toList rest)
          (readsMembers_sorted hreads []) rest
      rw [print, List.cons_append, List.cons_append, List.append_assoc, List.singleton_append,
        scanValue_brace, hmembers, sorted]
      rfl

/-- The text of a plain value is parsed as the value, with its members in order. -/
theorem parse_compact {depth : Nat} {j : Json} (h : Plain depth j) (hdepth : depth < depthLimit) :
    parse j.compact = .ok j.sorted := by
  have hread := (reads_scanValue h hdepth).takes []
  rw [List.append_nil] at hread
  simp only [parse, compact, String.toList_ofList, hread, bind, Except.bind]
  rfl

end PgSteward.Json
