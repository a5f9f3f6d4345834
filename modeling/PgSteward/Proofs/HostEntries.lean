import Mathlib.Data.List.Basic
import Mathlib.Data.List.TakeWhile
import PgSteward.Host.Entry

/-!
# Entries and their texts

A text is an entry when, without the blanks around it, it is a host, `=`, a user, `:` and a rest
(`HostEntry.Written`).  The rest is the password, or the password, `=` and the parameters
(`HostEntry.Divides`).  The marks may occur in other parts as well: a host may hold a `:`, a user a
`=`, a password a `:`, and parameters hold both.  Since each part is free of the mark that ends it,
there is one way at most to take a text apart, and it is the one that `HostEntry.parse` takes
(`HostEntry.parse_written`).

Taking the blanks off is described by `Text.Strips`, without a direction in which to work.
-/

namespace PgSteward

namespace Text

/-! ## The blanks around a text -/

/-- A text has no blank at either end. -/
structure IsTrimmed (t : List Char) : Prop where
  head : ∀ c ∈ t.head?, isBlank c = false
  last : ∀ c ∈ t.getLast?, isBlank c = false

/-- The second text is the first without the blanks around it. -/
structure Strips (cs t : List Char) : Prop where
  around : ∃ front back, cs = front ++ (t ++ back) ∧
    (∀ c ∈ front, isBlank c = true) ∧ ∀ c ∈ back, isBlank c = true
  trimmed : IsTrimmed t

theorem dropWhile_isBlank_append {front t : List Char} (hfront : ∀ c ∈ front, isBlank c = true)
    (ht : ∀ c ∈ t.head?, isBlank c = false) : (front ++ t).dropWhile isBlank = t := by
  rw [List.dropWhile_append_of_pos hfront]
  cases t with
  | nil => rfl
  | cons c cs => exact List.dropWhile_cons_of_neg (by rw [ht c rfl]; exact Bool.false_ne_true)

theorem isBlank_of_mem_head?_dropWhile {cs : List Char} :
    ∀ c ∈ (cs.dropWhile isBlank).head?, isBlank c = false := by
  intro c hc
  have hnot := List.head?_dropWhile_not isBlank cs
  rw [Option.mem_def.mp hc] at hnot
  exact hnot

theorem Strips.trim_eq {cs t : List Char} (h : Strips cs t) : trim cs = t := by
  obtain ⟨⟨front, back, rfl, hfront, hback⟩, hhead, hlast⟩ := h
  cases t with
  | nil =>
      have hall : ∀ c ∈ front ++ ([] ++ back), isBlank c = true := by
        intro c hc
        exact (List.mem_append.mp hc).elim (hfront c) (hback c)
      rw [trim, trimLeft, List.dropWhile_eq_nil_iff.mpr hall]
      rfl
  | cons d ds =>
      have hleft : trimLeft (front ++ (d :: ds ++ back)) = d :: ds ++ back :=
        dropWhile_isBlank_append hfront hhead
      have hright : (d :: ds ++ back).reverse.dropWhile isBlank = (d :: ds).reverse := by
        rw [List.reverse_append]
        refine dropWhile_isBlank_append (fun c hc => hback c (List.mem_reverse.mp hc)) ?_
        rwa [List.head?_reverse]
      rw [trim, hleft, trimRight, hright, List.reverse_reverse]

theorem strips_trim (cs : List Char) : Strips cs (trim cs) := by
  set left := trimLeft cs with hleft
  have hcs : cs.takeWhile isBlank ++ left = cs := List.takeWhile_append_dropWhile
  have hback : trim cs ++ (left.reverse.takeWhile isBlank).reverse = left := by
    rw [trim, trimRight, ← hleft, ← List.reverse_append, List.takeWhile_append_dropWhile,
      List.reverse_reverse]
  refine ⟨⟨cs.takeWhile isBlank, (left.reverse.takeWhile isBlank).reverse, ?_,
    fun c hc => List.mem_takeWhile_imp hc,
    fun c hc => List.mem_takeWhile_imp (List.mem_reverse.mp hc)⟩, ?_, ?_⟩
  · rw [hback, hcs]
  · -- the first character left is the first that is left at the start
    intro c hc
    have hfirst : c ∈ (cs.dropWhile isBlank).head? := by
      change c ∈ left.head?
      rw [← hback, List.head?_append, Option.mem_def.mp hc]
      rfl
    exact isBlank_of_mem_head?_dropWhile c hfirst
  · intro c hc
    rw [trim, trimRight, List.getLast?_reverse] at hc
    exact isBlank_of_mem_head?_dropWhile c hc

/-- Taking off the blanks at the start and then those at the end leaves the text between them. -/
theorem strips_iff {cs t : List Char} : Strips cs t ↔ trim cs = t :=
  ⟨Strips.trim_eq, fun h => h ▸ strips_trim cs⟩

/-- A text without blanks at its ends is stripped already. -/
theorem IsTrimmed.strips {t : List Char} (h : IsTrimmed t) : Strips t t :=
  ⟨⟨[], [], by simp, by simp, by simp⟩, h⟩

end Text

namespace HostEntry

/-! ## Texts that are entries -/

/-- Without the blanks around it, a text is a host, `=`, a user, `:` and a rest. -/
structure Written (cs host user rest : List Char) : Prop where
  strips : Text.Strips cs (host ++ '=' :: (user ++ ':' :: rest))
  host_ne : host ≠ []
  host_free : '=' ∉ host
  user_ne : user ≠ []
  user_free : ':' ∉ user

/-- A rest is the password up to its first `=` and the parameters behind it, and without a `=` it is
all the password. -/
structure Divides (rest password params : List Char) : Prop where
  parts : rest = password ++ '=' :: params ∨ rest = password ∧ params = []
  password_free : '=' ∉ password

theorem divides_iff {rest password params : List Char} :
    Divides rest password params ↔
      (Text.cutAt '=' rest).getD (rest, []) = (password, params) := by
  constructor
  · rintro ⟨rfl | ⟨rfl, rfl⟩, hfree⟩
    · rw [Text.cutAt_eq_some_iff.mpr ⟨hfree, rfl⟩, Option.getD_some]
    · rw [Text.cutAt_eq_none_iff.mpr hfree, Option.getD_none]
  · intro h
    cases hcut : Text.cutAt '=' rest with
    | none =>
        rw [hcut] at h
        cases h
        exact ⟨.inr ⟨rfl, rfl⟩, Text.cutAt_eq_none_iff.mp hcut⟩
    | some parts =>
        rw [hcut] at h
        cases h
        obtain ⟨hfree, hrest⟩ := Text.cutAt_eq_some_iff.mp hcut
        exact ⟨.inl hrest, hfree⟩

/-- Two cuts and the check for empty parts are the form of an entry. -/
theorem read?_eq_some_iff {cs : List Char} {e : HostEntry} :
    read? cs = some e ↔
      ∃ rest, Written cs e.host.toList e.login.user.toList rest ∧
        Divides rest e.login.password.toList e.login.params.toList := by
  constructor
  · intro h
    obtain ⟨⟨host, behind⟩, hhost, h⟩ := Option.bind_eq_some_iff.mp h
    obtain ⟨⟨user, rest⟩, huser, h⟩ := Option.bind_eq_some_iff.mp h
    obtain ⟨hhostFree, htrim⟩ := Text.cutAt_eq_some_iff.mp hhost
    obtain ⟨huserFree, hbehind⟩ := Text.cutAt_eq_some_iff.mp huser
    simp only [Option.ite_none_left_eq_some, Bool.or_eq_true, List.isEmpty_iff, not_or,
      Option.some.injEq] at h
    obtain ⟨⟨hhostNe, huserNe⟩, rfl⟩ := h
    rw [hbehind] at htrim
    simp only [String.toList_ofList]
    exact ⟨rest, ⟨Text.strips_iff.mpr htrim, hhostNe, hhostFree, huserNe, huserFree⟩,
      divides_iff.mpr rfl⟩
  · rintro ⟨rest, ⟨hstrips, hhostNe, hhostFree, huserNe, huserFree⟩, hrest⟩
    have hhost := Text.cutAt_eq_some_iff.mpr ⟨hhostFree, hstrips.trim_eq⟩
    have huser := Text.cutAt_eq_some_iff.mpr ⟨huserFree, Eq.refl (_ ++ ':' :: rest)⟩
    simp [read?, hhost, huser, divides_iff.mp hrest, hhostNe, huserNe]

theorem parse_eq_ok_iff {s : String} {e : HostEntry} :
    parse s = .ok e ↔ read? s.toList = some e := by
  rw [parse]
  cases read? s.toList <;> simp

/-- An entry whose text can be read back. -/
structure Plain (e : HostEntry) : Prop where
  host_ne : e.host ≠ ""
  host_free : '=' ∉ e.host.toList
  host_head : ∀ c ∈ e.host.toList.head?, Text.isBlank c = false
  user_ne : e.login.user ≠ ""
  user_free : ':' ∉ e.login.user.toList
  password_free : '=' ∉ e.login.password.toList
  params_last : ∀ c ∈ e.login.params.toList.getLast?, Text.isBlank c = false

theorem toList_render (e : HostEntry) :
    e.render.toList = e.host.toList ++ '=' :: (e.login.user.toList ++
      ':' :: (e.login.password.toList ++ '=' :: e.login.params.toList)) := by
  simp only [render, String.toList_append, toString, List.append_assoc]
  rfl

/-- The text of a plain entry starts with its host and ends with its parameters, so it has no blanks
around it. -/
theorem Plain.isTrimmed {e : HostEntry} (h : e.Plain) : Text.IsTrimmed e.render.toList := by
  have hhost : e.host.toList ≠ [] := fun hnil => h.host_ne (String.toList_eq_nil_iff.mp hnil)
  constructor
  · intro c hc
    rw [toList_render, List.head?_append_of_ne_nil _ hhost] at hc
    exact h.host_head c hc
  · intro c hc
    set front := e.host.toList ++ '=' :: (e.login.user.toList ++ ':' :: e.login.password.toList)
      with hfront
    have hrender : e.render.toList = front ++ ('=' :: e.login.params.toList) := by
      rw [toList_render, hfront]
      simp only [List.append_assoc, List.cons_append]
    rw [hrender, List.getLast?_append_of_ne_nil _ (List.cons_ne_nil _ _), List.getLast?_cons] at hc
    cases hlast : e.login.params.toList.getLast? with
    | none =>
        rw [hlast] at hc
        cases hc
        decide
    | some d =>
        rw [hlast] at hc
        cases hc
        exact h.params_last _ hlast

theorem Plain.written {e : HostEntry} (h : e.Plain) :
    Written e.render.toList e.host.toList e.login.user.toList
      (e.login.password.toList ++ '=' :: e.login.params.toList) := by
  refine ⟨?_, fun hnil => h.host_ne (String.toList_eq_nil_iff.mp hnil), h.host_free,
    fun hnil => h.user_ne (String.toList_eq_nil_iff.mp hnil), h.user_free⟩
  rw [← toList_render]
  exact h.isTrimmed.strips

/-! ## Reading entries -/

/-- A text is read exactly when it is written as an entry, and whichever way it is written, its
parts are what is read.  A plain entry is read back from its text. -/
theorem parse_written :
    (∀ s : String, (∃ e, parse s = .ok e) ↔ ∃ host user rest, Written s.toList host user rest) ∧
    (∀ (s : String) (host user rest : List Char), Written s.toList host user rest →
      ∃ e, parse s = .ok e ∧ e.host.toList = host ∧ e.login.user.toList = user ∧
        Divides rest e.login.password.toList e.login.params.toList) ∧
    ∀ e : HostEntry, e.Plain → parse e.render = .ok e := by
  have hread : ∀ (s : String) (host user rest : List Char), Written s.toList host user rest →
      ∃ e, parse s = .ok e ∧ e.host.toList = host ∧ e.login.user.toList = user ∧
        Divides rest e.login.password.toList e.login.params.toList := by
    intro s host user rest h
    obtain ⟨password, params, hrest⟩ : ∃ password params, Divides rest password params :=
      ⟨_, _, divides_iff.mpr rfl⟩
    refine ⟨⟨.ofList host, ⟨.ofList user, .ofList password, .ofList params⟩⟩,
      parse_eq_ok_iff.mpr (read?_eq_some_iff.mpr ⟨rest, ?_⟩), ?_⟩
    · simpa only [String.toList_ofList] using ⟨h, hrest⟩
    · simpa only [String.toList_ofList, true_and] using hrest
  refine ⟨fun s => ⟨?_, ?_⟩, hread, ?_⟩
  · rintro ⟨e, he⟩
    obtain ⟨rest, h, -⟩ := read?_eq_some_iff.mp (parse_eq_ok_iff.mp he)
    exact ⟨_, _, rest, h⟩
  · rintro ⟨host, user, rest, h⟩
    obtain ⟨e, he, -⟩ := hread s host user rest h
    exact ⟨e, he⟩
  · intro e h
    exact parse_eq_ok_iff.mpr (read?_eq_some_iff.mpr ⟨_, h.written, .inl rfl, h.password_free⟩)

/-- A port in the host, a colon in the password and a `=` in the parameters. -/
def shopEntry : HostEntry := ⟨"pg:5432", ⟨"admin", "a:b", "sslmode=require"⟩⟩

theorem shopEntry_plain : shopEntry.Plain where
  host_ne := by decide
  host_free := by decide
  host_head := by
    rintro c ⟨⟩
    decide
  user_ne := by decide
  user_free := by decide
  password_free := by decide
  params_last := by
    rintro c ⟨⟩
    decide

theorem shopEntry_written :
    (∃ e, parse "\u2003pg:5432=admin:a:b=sslmode=require\n" = .ok e ∧
      e.host.toList = "pg:5432".toList ∧ e.login.user.toList = "admin".toList ∧
      Divides "a:b=sslmode=require".toList e.login.password.toList e.login.params.toList) ∧
    parse shopEntry.render = .ok shopEntry := by
  refine ⟨parse_written.2.1 _ _ _ "a:b=sslmode=require".toList
    ⟨Text.strips_iff.mpr (by decide +kernel), by decide, by decide, by decide, by decide⟩,
    parse_written.2.2 shopEntry shopEntry_plain⟩

end HostEntry

end PgSteward
