import Mathlib.Data.List.TakeWhile
import PgSteward.Proofs.HostPorts
import PgSteward.Proofs.ProgramRuns
import PgSteward.Proofs.SpacedWords

/-!
# What a connection is opened with

A parameter text lists pairs (`Lists`): words `key=value` and other words without a `=`, with blanks
around them.  Reading a text gives the pairs that it lists and no others (`lists_iff`).  The pairs
are then taken one after the other.  A pair chooses how the connection is encrypted, chooses what it
calls itself or is one more option of the session, so after a run of pairs the last choices hold and
all options are there (`ConnectionSettings.chosen_of_withParams`).

`ConnectionTarget.settings_read` puts this together with the host text: the settings say what the
target says.
-/

namespace PgSteward

namespace Text

/-! ## The first word of a text -/

/-- A text that starts with no blank starts with a word. -/
theorem exists_word {c : Char} (h : isBlank c = false) (cs : List Char) :
    ∃ w rest, c :: cs = w ++ rest ∧ IsWord w ∧ wordEnds rest = true := by
  refine ⟨(c :: cs).takeWhile (!isBlank ·), (c :: cs).dropWhile (!isBlank ·),
    List.takeWhile_append_dropWhile.symm, ⟨?_, fun d hd => ?_⟩, ?_⟩
  · simp [h]
  · simpa using List.mem_takeWhile_imp hd
  · have hnot := List.head?_dropWhile_not (!isBlank ·) (c :: cs)
    cases hrest : (c :: cs).dropWhile (!isBlank ·) with
    | nil => rfl
    | cons d ds =>
        rw [hrest] at hnot
        simpa [wordEnds] using hnot

end Text

/-! ## Texts that list pairs -/

/-- A text lists pairs, in order, as words `key=value`.  There may be blanks around all words and
other words without a `=` between them. -/
inductive Lists : List (String × String) → List Char → Prop where
  | done : Lists [] []
  | blank {c : Char} {pairs : List (String × String)} {cs : List Char} :
      Text.isBlank c = true → Lists pairs cs → Lists pairs (c :: cs)
  | word {w : List Char} {pairs : List (String × String)} {cs : List Char} :
      Text.IsWord w → '=' ∉ w → Text.wordEnds cs = true → Lists pairs cs → Lists pairs (w ++ cs)
  | pair {key value : String} {pairs : List (String × String)} {cs : List Char} :
      '=' ∉ key.toList → (∀ c ∈ key.toList, Text.isBlank c = false) →
      (∀ c ∈ value.toList, Text.isBlank c = false) → Text.wordEnds cs = true → Lists pairs cs →
      Lists ((key, value) :: pairs) (key.toList ++ '=' :: value.toList ++ cs)

/-- The pair that a word is. -/
def pairOf (word : List Char) : Option (String × String) :=
  (Text.cutAt '=' word).map fun kv => (String.ofList kv.1, String.ofList kv.2)

theorem paramsOf_eq (s : String) : paramsOf s = (Text.words s.toList).filterMap pairOf := rfl

theorem pairOf_eq_some_iff {word : List Char} {key value : String} :
    pairOf word = some (key, value) ↔
      '=' ∉ key.toList ∧ word = key.toList ++ '=' :: value.toList := by
  rw [pairOf, Option.map_eq_some_iff, ← Text.cutAt_eq_some_iff]
  constructor
  · rintro ⟨⟨front, back⟩, hcut, hkv⟩
    cases hkv
    simpa only [String.toList_ofList] using hcut
  · intro hcut
    exact ⟨_, hcut, by simp only [String.ofList_toList]⟩

theorem pairOf_eq_none_iff {word : List Char} : pairOf word = none ↔ '=' ∉ word := by
  rw [pairOf, Option.map_eq_none_iff, Text.cutAt_eq_none_iff]

theorem isWord_pair {key value : List Char} :
    Text.IsWord (key ++ '=' :: value) ↔
      (∀ c ∈ key, Text.isBlank c = false) ∧ ∀ c ∈ value, Text.isBlank c = false := by
  have hmark : Text.isBlank '=' = false := by decide
  rw [Text.IsWord, and_iff_right (by simp), List.forall_mem_append, List.forall_mem_cons,
    and_iff_right hmark]

theorem Lists.filterMap_words {pairs : List (String × String)} {cs : List Char}
    (h : Lists pairs cs) : (Text.words cs).filterMap pairOf = pairs := by
  induction h with
  | done => rfl
  | blank hc _ ih => rw [Text.words_blank_cons hc, ih]
  | word hw hfree hends _ ih =>
      rw [Text.words_append hw hends, List.filterMap_cons_none (pairOf_eq_none_iff.mpr hfree), ih]
  | pair hfree hkey hvalue hends _ ih =>
      rw [Text.words_append (isWord_pair.mpr ⟨hkey, hvalue⟩) hends,
        List.filterMap_cons_some (pairOf_eq_some_iff.mpr ⟨hfree, rfl⟩), ih]

/-- Every text lists the pairs among its words. -/
theorem lists_filterMap_words : (cs : List Char) → Lists ((Text.words cs).filterMap pairOf) cs
  | [] => .done
  | c :: cs => by
      cases hc : Text.isBlank c with
      | true =>
          rw [Text.words_blank_cons hc]
          exact .blank hc (lists_filterMap_words cs)
      | false =>
          -- The recursion goes on behind the first word, not behind the first character.
          obtain ⟨w, rest, heq, hw, hends⟩ := Text.exists_word hc cs
          have hlength : rest.length ≤ cs.length := by
            have hsum := congrArg List.length heq
            have hpos := List.length_pos_iff.mpr hw.1
            rw [List.length_cons, List.length_append] at hsum
            omega
          have hrest := lists_filterMap_words rest
          rw [heq, Text.words_append hw hends]
          cases hpair : pairOf w with
          | none =>
              rw [List.filterMap_cons_none hpair]
              exact .word hw (pairOf_eq_none_iff.mp hpair) hends hrest
          | some kv =>
              obtain ⟨hfree, hword⟩ := pairOf_eq_some_iff.mp hpair
              rw [List.filterMap_cons_some hpair, hword]
              obtain ⟨hkey, hvalue⟩ := isWord_pair.mp (hword ▸ hw)
              exact .pair hfree hkey hvalue hends hrest
  termination_by cs => cs.length

/-- A text lists the pairs that are read in it, and no others. -/
theorem lists_iff {pairs : List (String × String)} {s : String} :
    Lists pairs s.toList ↔ paramsOf s = pairs :=
  ⟨Lists.filterMap_words, fun h => h ▸ lists_filterMap_words s.toList⟩

/-! ## What the pairs choose -/

/-- A value names a mode, in whatever case its ASCII letters are. -/
def SslMode.Named (value : String) (mode : SslMode) : Prop :=
  ∃ name, (name, mode) ∈ SslMode.names ∧ name.toList = value.toList.map Char.toLower

theorem SslMode.names_functional :
    ∀ m ∈ SslMode.names, ∀ m' ∈ SslMode.names, m.1.toList = m'.1.toList → m.2 = m'.2 := by
  decide

theorem SslMode.ofName_eq_ok_iff {value : String} {mode : SslMode} :
    SslMode.ofName value = .ok mode ↔ SslMode.Named value mode := by
  rw [SslMode.ofName]
  constructor
  · intro h
    split at h
    next m hfind =>
      cases h
      exact ⟨m.1, List.mem_of_find?_eq_some hfind, by simpa using List.find?_some hfind⟩
    next => cases h
  · rintro ⟨name, hmem, hname⟩
    split
    next m hfind =>
      have hm := List.find?_some hfind
      rw [decide_eq_true_eq] at hm
      rw [SslMode.names_functional m (List.mem_of_find?_eq_some hfind) _ hmem (hm.trans hname.symm)]
    next hnone =>
      exact absurd hname (by simpa using List.find?_eq_none.mp hnone _ hmem)

/-- The value of the last pair with a key. -/
def lastValue (key : String) (pairs : List (String × String)) : Option String :=
  ((pairs.filter fun kv => kv.1 = key).map Prod.snd).getLast?

/-- The pairs that are options of the session. -/
def sessionOptions (pairs : List (String × String)) : List (String × String) :=
  pairs.filter fun kv => kv.1 ≠ "sslmode" ∧ kv.1 ≠ "application_name"

theorem lastValue_append (key : String) (ps qs : List (String × String)) :
    lastValue key (ps ++ qs) = (lastValue key qs).or (lastValue key ps) := by
  simp only [lastValue, List.filter_append, List.map_append, List.getLast?_append]

theorem lastValue_singleton (key : String) (kv : String × String) :
    lastValue key [kv] = if kv.1 = key then some kv.2 else none := by
  by_cases h : kv.1 = key <;> simp [lastValue, h]

/-- All the values of `sslmode` are known. -/
def KnowsModes (pairs : List (String × String)) : Prop :=
  ∀ value, ("sslmode", value) ∈ pairs → ∃ mode, SslMode.Named value mode

theorem knowsModes_cons {key value : String} {rest : List (String × String)} :
    KnowsModes ((key, value) :: rest) ↔
      (key = "sslmode" → ∃ mode, SslMode.Named value mode) ∧ KnowsModes rest := by
  unfold KnowsModes
  simp only [List.mem_cons, Prod.mk.injEq]
  constructor
  · intro h
    exact ⟨fun hkey => h value (.inl ⟨hkey.symm, rfl⟩), fun v hv => h v (.inr hv)⟩
  · rintro ⟨hfirst, hrest⟩ v (⟨hkey, rfl⟩ | hv)
    · exact hfirst hkey.symm
    · exact hrest v hv

namespace ConnectionSettings

/-- The settings `after` are `before` with what some pairs choose. -/
structure Chosen (before : ConnectionSettings) (pairs : List (String × String))
    (after : ConnectionSettings) : Prop where
  host : after.host = before.host
  port : after.port = before.port
  database : after.database = before.database
  user : after.user = before.user
  sslMode : match lastValue "sslmode" pairs with
    | some value => SslMode.Named value after.sslMode
    | none => after.sslMode = before.sslMode
  applicationName :
    after.applicationName = (lastValue "application_name" pairs).or before.applicationName
  options : after.options = before.options ++ sessionOptions pairs

theorem Chosen.refl (s : ConnectionSettings) : s.Chosen [] s :=
  ⟨rfl, rfl, rfl, rfl, rfl, rfl, (List.append_nil _).symm⟩

/-- Later choices win over earlier ones, and options are kept. -/
theorem Chosen.trans {s t u : ConnectionSettings} {ps qs : List (String × String)}
    (first : s.Chosen ps t) (second : t.Chosen qs u) : s.Chosen (ps ++ qs) u where
  host := second.host.trans first.host
  port := second.port.trans first.port
  database := second.database.trans first.database
  user := second.user.trans first.user
  sslMode := by
    have hfirst := first.sslMode
    have hsecond := second.sslMode
    rw [lastValue_append]
    cases hq : lastValue "sslmode" qs with
    | some value => simpa only [hq, Option.some_or] using hsecond
    | none =>
        -- No later pair names a mode, so the one from before stays.
        rw [hq] at hsecond
        dsimp only at hsecond
        rw [Option.none_or, hsecond]
        exact hfirst
  applicationName := by
    rw [second.applicationName, first.applicationName, lastValue_append, Option.or_assoc]
  options := by
    rw [second.options, first.options, List.append_assoc, sessionOptions, sessionOptions,
      sessionOptions, List.filter_append]

/-- One pair chooses one thing. -/
theorem chosen_of_withParam {before after : ConnectionSettings} {key value : String}
    (h : before.withParam key value = .ok after) : before.Chosen [(key, value)] after := by
  unfold withParam at h
  split at h
  next hkey =>
    obtain ⟨mode, hmode, h⟩ := Program.except_bind_eq_ok_iff.mp h
    cases h
    subst hkey
    exact ⟨rfl, rfl, rfl, rfl, SslMode.ofName_eq_ok_iff.mp hmode, rfl,
      (List.append_nil _).symm⟩
  next hkey =>
    have hmode : lastValue "sslmode" [(key, value)] = none := by
      rw [lastValue_singleton, if_neg hkey]
    split at h
    next hkey' =>
      cases h
      subst hkey'
      exact ⟨rfl, rfl, rfl, rfl, rfl, rfl, (List.append_nil _).symm⟩
    next hkey' =>
      cases h
      refine ⟨rfl, rfl, rfl, rfl, by rw [hmode], ?_, ?_⟩
      · rw [lastValue_singleton, if_neg hkey', Option.none_or]
      · simp [sessionOptions, hkey, hkey']

theorem exists_withParam_iff {key value : String} (before : ConnectionSettings) :
    (∃ after, before.withParam key value = .ok after) ↔
      (key = "sslmode" → ∃ mode, SslMode.Named value mode) := by
  unfold withParam
  simp only [← SslMode.ofName_eq_ok_iff]
  split
  next hkey =>
    simp only [hkey, true_imp_iff, Program.except_bind_eq_ok_iff]
    constructor
    · rintro ⟨after, mode, hmode, -⟩
      exact ⟨mode, hmode⟩
    · rintro ⟨mode, hmode⟩
      exact ⟨_, mode, hmode, rfl⟩
  next hkey =>
    refine iff_of_true ?_ fun h => absurd h hkey
    split <;> exact ⟨_, rfl⟩

/-- After a run of pairs, what they choose holds. -/
theorem chosen_of_withParams {before after : ConnectionSettings} {pairs : List (String × String)}
    (h : before.withParams pairs = .ok after) : before.Chosen pairs after := by
  induction pairs generalizing before with
  | nil =>
      cases h
      exact .refl _
  | cons kv rest ih =>
      obtain ⟨mid, hmid, hrest⟩ := Program.except_bind_eq_ok_iff.mp h
      exact (chosen_of_withParam hmid).trans (ih hrest)

/-- The pairs are taken to the last one exactly when their modes are known. -/
theorem exists_withParams_iff {pairs : List (String × String)} (before : ConnectionSettings) :
    (∃ after, before.withParams pairs = .ok after) ↔ KnowsModes pairs := by
  induction pairs generalizing before with
  | nil => exact iff_of_true ⟨before, rfl⟩ fun _ hmem => absurd hmem List.not_mem_nil
  | cons kv rest ih =>
      obtain ⟨key, value⟩ := kv
      rw [knowsModes_cons, ← exists_withParam_iff before]
      constructor
      · rintro ⟨after, h⟩
        obtain ⟨mid, hmid, hrest⟩ := Program.except_bind_eq_ok_iff.mp h
        exact ⟨⟨mid, hmid⟩, (ih mid).mp ⟨after, hrest⟩⟩
      · rintro ⟨⟨mid, hmid⟩, hrest⟩
        obtain ⟨after, hafter⟩ := (ih mid).mpr hrest
        exact ⟨after, Program.except_bind_eq_ok_iff.mpr ⟨mid, hmid, hafter⟩⟩

/-! ## The options as the server takes them -/

/-- The words of an options text, a flag in front of each pair. -/
def optionWords (pairs : List (String × String)) : List (List Char) :=
  pairs.flatMap fun kv => [['-', 'c'], kv.1.toList ++ '=' :: kv.2.toList]

theorem optionWords_cons (kv : String × String) (pairs : List (String × String)) :
    optionWords (kv :: pairs) =
      ['-', 'c'] :: (kv.1.toList ++ '=' :: kv.2.toList) :: optionWords pairs := rfl

/-- A pair as the server takes it. -/
def optionText (kv : String × String) : String := s!"-c {kv.1}={kv.2}"

theorem toList_optionText (kv : String × String) :
    (optionText kv).toList = ['-', 'c'] ++ ' ' :: (kv.1.toList ++ '=' :: kv.2.toList) := by
  simp only [optionText, String.toList_append, toString, List.append_assoc]
  rfl

theorem toList_intercalate_optionText (pairs : List (String × String)) :
    (" ".intercalate (pairs.map optionText)).toList = Text.spaced (optionWords pairs) := by
  induction pairs with
  | nil => rfl
  | cons kv rest ih =>
      cases rest with
      | nil =>
          rw [List.map_singleton, String.intercalate_singleton, toList_optionText]
          rfl
      | cons kv' more =>
          rw [List.map_cons, List.map_cons, String.intercalate_cons_cons, ← List.map_cons,
            String.toList_append, String.toList_append, ih, toList_optionText,
            optionWords_cons kv', optionWords_cons kv, optionWords_cons kv']
          simp [Text.spaced]

theorem optionsText_eq (s : ConnectionSettings) :
    s.optionsText = if s.options = [] then none
      else some (String.ofList (Text.spaced (optionWords s.options))) := by
  rw [optionsText, ← toList_intercalate_optionText, String.ofList_toList]
  simp only [List.isEmpty_iff]
  rfl

end ConnectionSettings

theorem Lists.forall_mem {pairs : List (String × String)} {cs : List Char} (h : Lists pairs cs) :
    ∀ kv ∈ pairs, '=' ∉ kv.1.toList ∧ Text.IsWord (kv.1.toList ++ '=' :: kv.2.toList) := by
  induction h with
  | done => exact fun kv hkv => absurd hkv List.not_mem_nil
  | blank _ _ ih => exact ih
  | word _ _ _ _ ih => exact ih
  | pair hfree hkey hvalue _ _ ih =>
      exact List.forall_mem_cons.mpr ⟨⟨hfree, isWord_pair.mpr ⟨hkey, hvalue⟩⟩, ih⟩

/-- Pairs that a text lists are listed by their options text as well. -/
theorem ConnectionSettings.paramsOf_spaced_optionWords {pairs : List (String × String)}
    (h : ∀ kv ∈ pairs, '=' ∉ kv.1.toList ∧ Text.IsWord (kv.1.toList ++ '=' :: kv.2.toList)) :
    paramsOf (String.ofList (Text.spaced (optionWords pairs))) = pairs := by
  have hwords : ∀ w ∈ optionWords pairs, Text.IsWord w := by
    intro w hw
    obtain ⟨kv, hkv, hw⟩ := List.mem_flatMap.mp hw
    rcases List.mem_pair.mp hw with rfl | rfl
    · exact show Text.IsWord ['-', 'c'] by decide
    · exact (h kv hkv).2
  rw [paramsOf_eq, String.toList_ofList, Text.words_spaced hwords]
  clear hwords
  induction pairs with
  | nil => rfl
  | cons kv rest ih =>
      obtain ⟨hfirst, hrest⟩ := List.forall_mem_cons.mp h
      rw [optionWords_cons, List.filterMap_cons_none rfl,
        List.filterMap_cons_some (pairOf_eq_some_iff.mpr ⟨hfirst.1, rfl⟩), ih hrest]

/-! ## Targets -/

/-- The settings say what a target says whose parameters are some pairs. -/
structure ConnectionSettings.Serves (s : ConnectionSettings) (t : ConnectionTarget)
    (pairs : List (String × String)) : Prop where
  place : HostText t.host s.host s.port
  database : s.database = t.database
  user : s.user = t.user
  sslMode : match lastValue "sslmode" pairs with
    | some value => SslMode.Named value s.sslMode
    | none => s.sslMode = .prefer
  applicationName : s.applicationName = lastValue "application_name" pairs
  options : s.options = sessionOptions pairs
  /-- The options text has one blank between any two words. -/
  optionsText : s.optionsText = if sessionOptions pairs = [] then none
    else some (String.ofList (Text.spaced (optionWords (sessionOptions pairs))))
  /-- The options text lists the options again. -/
  optionsText_lists : ∀ text, s.optionsText = some text → paramsOf text = sessionOptions pairs

theorem ConnectionTarget.settings_eq_ok_iff {t : ConnectionTarget} {s : ConnectionSettings} :
    t.settings = .ok s ↔ ∃ name port, HostText t.host name port ∧
      ConnectionSettings.withParams
        { host := name, port, database := t.database, user := t.user } (paramsOf t.params) =
        .ok s := by
  rw [ConnectionTarget.settings, Program.except_bind_eq_ok_iff]
  simp only [Prod.exists, hostAndPort_eq_ok_iff]

theorem ConnectionTarget.serves_of_settings {t : ConnectionTarget} {s : ConnectionSettings}
    {pairs : List (String × String)} (h : t.settings = .ok s)
    (hpairs : Lists pairs t.params.toList) : s.Serves t pairs := by
  obtain ⟨name, port, hplace, h⟩ := settings_eq_ok_iff.mp h
  rw [lists_iff.mp hpairs] at h
  have hchosen := ConnectionSettings.chosen_of_withParams h
  have hoptions : s.options = sessionOptions pairs := hchosen.options
  have htext := s.optionsText_eq
  rw [hoptions] at htext
  have hplain : ∀ kv ∈ sessionOptions pairs, '=' ∉ kv.1.toList ∧
      Text.IsWord (kv.1.toList ++ '=' :: kv.2.toList) :=
    fun kv hkv => hpairs.forall_mem kv (List.mem_of_mem_filter hkv)
  refine ⟨?_, hchosen.database, hchosen.user, hchosen.sslMode, ?_, hoptions, htext, ?_⟩
  · rwa [hchosen.host, hchosen.port]
  · rw [hchosen.applicationName, Option.or_none]
  · intro text hsome
    rw [htext] at hsome
    split at hsome
    next => cases hsome
    next =>
      cases hsome
      exact ConnectionSettings.paramsOf_spaced_optionWords hplain

/-- A name with a colon, a port with a plus sign and a zero, modes that are named twice, and options
with `=` in their values. -/
def shopTarget : ConnectionTarget where
  host := "::1:+05433"
  database := "shop"
  user := "admin"
  password := "secret"
  params := "\u2003sslmode=disable a=b=c  verbose a= \napplication_name=x sslmode=Verify-Full a=b=c"

/-- The pairs among the parameters of the target. -/
def shopPairs : List (String × String) :=
  [("sslmode", "disable"), ("a", "b=c"), ("a", ""), ("application_name", "x"),
    ("sslmode", "Verify-Full"), ("a", "b=c")]

theorem paramsOf_shopTarget : paramsOf shopTarget.params = shopPairs := by
  decide +kernel

theorem knowsModes_shopTarget : KnowsModes (paramsOf shopTarget.params) := by
  rw [paramsOf_shopTarget]
  intro value hmem
  simp only [shopPairs, List.mem_cons, Prod.mk.injEq, String.reduceEq, true_and, false_and,
    false_or, or_false, List.not_mem_nil] at hmem
  rcases hmem with rfl | rfl
  · exact ⟨.disable, SslMode.ofName_eq_ok_iff.mp (by decide)⟩
  · exact ⟨.verifyFull, SslMode.ofName_eq_ok_iff.mp (by decide)⟩

example : (shopTarget.settings.toOption.bind fun s => s.optionsText) =
    some "-c a=b=c -c a= -c a=b=c" := by
  decide +kernel

end PgSteward
