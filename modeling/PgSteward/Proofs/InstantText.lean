import PgSteward.Instant.Printer
import PgSteward.Instant.Reader
import PgSteward.Proofs.PolicyNumbers

/-!
# The text of an instant is read back

`Instant.parse_render` says so for every instant of a year that has dates.  The relaxed reader takes
a number off the front of a text up to a bound of digits or up to the first character that is none,
and `takeDigits_append` covers both: a padded number is always followed by a mark, or as long as its
bound.
-/

namespace PgSteward

namespace Text

/-- A text that does not go on with a digit. -/
def EndsNumber (cs : List Char) : Prop := ∀ c ∈ cs.head?, digit? c = none

theorem isSome_digit?_of_mem_decimal {c : Char} {n : Nat} (h : c ∈ decimal n) :
    (digit? c).isSome = true := by
  have hdigit := Nat.isDigit_of_mem_toDigits (by decide) (by decide) h
  simp only [Char.isDigit, Bool.and_eq_true, decide_eq_true_eq, ge_iff_le] at hdigit
  rw [digit?, if_pos ⟨hdigit.1, hdigit.2⟩, Option.isSome_some]

theorem isBlank_of_digit {c : Char} (h : (digit? c).isSome = true) : isBlank c = false := by
  unfold digit? at h
  split at h
  next hrange =>
    have hlow : 48 ≤ c.toNat := hrange.1
    have hhigh : c.toNat ≤ 57 := hrange.2
    simp [isBlank]
    omega
  next => cases h

theorem trimLeft_cons {c : Char} (h : isBlank c = false) (cs : List Char) :
    trimLeft (c :: cs) = c :: cs := by
  simp [trimLeft, h]

/-- Zeros in front of a number do not change it. -/
theorem digitsFrom?_zeros (count : Nat) (ds : List Char) :
    digitsFrom? 0 (List.replicate count '0' ++ ds) = digitsFrom? 0 ds := by
  induction count with
  | zero => rfl
  | succ count ih =>
      have hzero : digit? '0' = some 0 := by decide
      rw [List.replicate_succ, List.cons_append, digitsFrom?, hzero, Option.bind_some]
      exact ih

end Text

namespace Instant

open Text

/-! ## Numbers -/

theorem isSome_digit?_of_mem_padded {c : Char} {width n : Nat} (h : c ∈ padded width n) :
    (digit? c).isSome = true := by
  rcases List.mem_append.mp h with hzero | hdigit
  · rw [List.eq_of_mem_replicate hzero]
    decide
  · exact isSome_digit?_of_mem_decimal hdigit

theorem digitsFrom?_padded (width n : Nat) : digitsFrom? 0 (padded width n) = some n := by
  rw [padded, digitsFrom?_zeros, digitsFrom?_decimal]

theorem padded_ne_nil (width n : Nat) : padded width n ≠ [] := by
  rw [padded]
  exact List.append_ne_nil_of_right_ne_nil _ Nat.toDigits_ne_nil

/-- A padded number starts with a digit. -/
theorem isSome_digit?_of_padded_append {c : Char} {width n : Nat} {rest cs : List Char}
    (h : padded width n ++ rest = c :: cs) : (digit? c).isSome = true := by
  obtain ⟨d, ds, hpadded⟩ := List.exists_cons_of_ne_nil (padded_ne_nil width n)
  rw [hpadded, List.cons_append] at h
  cases h
  exact isSome_digit?_of_mem_padded (by rw [hpadded]; exact List.mem_cons_self ..)

/-- A number that fits into a width is padded to it. -/
theorem length_padded {width n : Nat} (hwidth : 0 < width) (h : n < 10 ^ width) :
    (padded width n).length = width := by
  have hdigits : (decimal n).length ≤ width :=
    (Nat.length_toDigits_le_iff (by decide) hwidth).mpr h
  rw [padded, List.length_append, List.length_replicate, Nat.sub_add_cancel hdigits]

/-- A run of digits is taken as a whole if it is as long as its bound or if no digit follows. -/
theorem takeDigits_append {most : Option Nat} {ds rest : List Char}
    (hdigits : ∀ c ∈ ds, (digit? c).isSome = true)
    (hend : most = some ds.length ∨ (EndsNumber rest ∧ ∀ n ∈ most, ds.length ≤ n)) :
    takeDigits most (ds ++ rest) = (ds, rest) := by
  have hrun : (ds ++ rest).takeWhile (fun c => (digit? c).isSome) =
      ds ++ rest.takeWhile fun c => (digit? c).isSome :=
    List.takeWhile_append_of_pos hdigits
  rcases hend with rfl | ⟨hrest, hmost⟩
  · simp [takeDigits, hrun]
  · have hnone : rest.takeWhile (fun c => (digit? c).isSome) = [] := by
      cases rest with
      | nil => rfl
      | cons c cs => simp [hrest c rfl]
    cases most with
    | none => simp [takeDigits, hrun, hnone]
    | some n => simp [takeDigits, hrun, hnone, List.take_of_length_le (hmost n rfl)]

/-- A padded number is taken off the front of a text. -/
theorem takeNumber_padded {most : Option Nat} {width n : Nat} {rest : List Char}
    (hend : most = some (padded width n).length ∨
      (EndsNumber rest ∧ ∀ m ∈ most, (padded width n).length ≤ m)) (hn : n < partLimit) :
    takeNumber most (padded width n ++ rest) = .ok (n, rest) := by
  have hdigits := takeDigits_append (fun c hc => isSome_digit?_of_mem_padded hc) hend
  have hne : (padded width n).isEmpty = false := by simp [padded_ne_nil]
  unfold takeNumber
  split
  next h => exact absurd (List.append_eq_nil_iff.mp h).1 (padded_ne_nil width n)
  next c cs h =>
    rw [hdigits]
    simp [hne, digitsFrom?_padded, hn]

/-- There is no blank in front of a padded number. -/
theorem trimLeft_padded (width n : Nat) (rest : List Char) :
    trimLeft (padded width n ++ rest) = padded width n ++ rest := by
  obtain ⟨c, cs, h⟩ : ∃ c cs, padded width n ++ rest = c :: cs :=
    List.exists_cons_of_ne_nil (List.append_ne_nil_of_left_ne_nil (padded_ne_nil width n) rest)
  rw [h, trimLeft_cons (isBlank_of_digit (isSome_digit?_of_padded_append h))]

/-- A part of two digits is taken off the front of a text. -/
theorem takePart_padded {least most n : Nat} (hleast : least ≤ n) (hmost : n ≤ most)
    (h : n < 100) (rest : List Char) :
    takePart least most (padded 2 n ++ rest) = .ok (n, rest) := by
  have hlength : (padded 2 n).length = 2 := length_padded (by decide) h
  have hnumber : takeNumber (some 2) (padded 2 n ++ rest) = .ok (n, rest) :=
    takeNumber_padded (.inl (by rw [hlength])) (Nat.lt_trans h (by decide))
  simp [takePart, trimLeft_padded, hnumber, bind, Except.bind, pure, Except.pure, hleast, hmost]

theorem takeMark_mark (mark : Char) (h : isBlank mark = false) (rest : List Char) :
    takeMark mark (mark :: rest) = .ok rest := by
  simp [takeMark, trimLeft_cons h]

theorem takeMiddle_letter (rest : List Char) : takeMiddle ('T' :: rest) = .ok rest := rfl

theorem takeDistance_zero (rest : List Char) : takeDistance ('Z' :: rest) = .ok (0, rest) := by
  have hword : takeWord? ('Z' :: rest) = none := by
    match rest with
    | [] | [_] => rfl
    | _ :: _ :: _ => rw [takeWord?, if_neg fun h => absurd h.1 (by decide)]
  simp [takeDistance, hword]

/-! ## Years -/

/-- The text of a year that has dates is taken off the front of a date. -/
theorem takeYear_yearText {year : Int} (h : hasDates year = true) (rest : List Char) :
    takeYear (yearText year ++ '-' :: rest) = .ok (year, '-' :: rest) := by
  have hend : EndsNumber ('-' :: rest) := by
    rintro c hc
    cases hc
    decide
  have hyear : -262143 ≤ year ∧ year ≤ 262142 :=
    (Bool.and_eq_true_iff.mp h).imp of_decide_eq_true of_decide_eq_true
  have hrange : -2147483648 ≤ year ∧ year ≤ 2147483647 := by omega
  have hlimit : year.natAbs < partLimit := by
    have : year.natAbs < 9223372036854775808 := by omega
    exact this
  have hsigned : takeNumber none (padded 4 year.natAbs ++ '-' :: rest) =
      .ok (year.natAbs, '-' :: rest) :=
    takeNumber_padded (.inr ⟨hend, by simp⟩) hlimit
  unfold yearText
  split
  next hnegative =>
    have hvalue : -Int.ofNat year.natAbs = year := by
      rw [Int.ofNat_eq_natCast]
      omega
    rw [takeYear, List.cons_append, trimLeft_cons (by decide)]
    simp only [hsigned, bind, Except.bind, pure, Except.pure, hvalue]
    rw [if_pos hrange]
  have hvalue : Int.ofNat year.natAbs = year := by
    rw [Int.ofNat_eq_natCast]
    omega
  split
  next hsmall =>
    have hlength : (padded 4 year.natAbs).length = 4 := length_padded (by decide) (by omega)
    have hfour : takeNumber (some 4) (padded 4 year.natAbs ++ '-' :: rest) =
        .ok (year.natAbs, '-' :: rest) :=
      takeNumber_padded (.inl (by rw [hlength])) hlimit
    rw [takeYear, trimLeft_padded]
    -- the text starts with a digit, so neither sign is there
    split
    next hsign => exact absurd (isSome_digit?_of_padded_append hsign) (by decide)
    next hsign => exact absurd (isSome_digit?_of_padded_append hsign) (by decide)
    next =>
      simp only [hfour, bind, Except.bind, pure, Except.pure, hvalue]
      rw [if_pos hrange]
  next =>
    rw [takeYear, List.cons_append, trimLeft_cons (by decide)]
    simp only [hsigned, bind, Except.bind, pure, Except.pure, hvalue]
    rw [if_pos hrange]

/-! ## Places of a second -/

/-- Places of some digits are taken as the nanoseconds that they stand for. -/
theorem takePlaces_padded {width n : Nat} (hwidth : 0 < width) (hnine : width ≤ 9)
    (h : n < 10 ^ width) :
    takePlaces ('.' :: padded width n ++ ['Z']) = .ok (n * 10 ^ (9 - width), ['Z']) := by
  have hlength := length_padded hwidth h
  have hend : EndsNumber ['Z'] := by
    rintro c hc
    cases hc
    decide
  have hmost : ∀ m ∈ some 9, (padded width n).length ≤ m := by
    rintro m hm
    cases hm
    rw [hlength]
    exact hnine
  have hlimit : n < partLimit :=
    Nat.lt_of_lt_of_le h (Nat.le_trans (Nat.pow_le_pow_right (by decide) hnine) (by decide))
  have hdigits : takeDigits (some 9) (padded width n ++ ['Z']) = (padded width n, ['Z']) :=
    takeDigits_append (fun c hc => isSome_digit?_of_mem_padded hc) (.inr ⟨hend, hmost⟩)
  have hnumber := takeNumber_padded (.inr ⟨hend, hmost⟩) hlimit
  have hrest : ['Z'].dropWhile (fun c => (digit? c).isSome) = ['Z'] := by decide
  simp only [takePlaces, List.cons_append, hdigits, hnumber, bind, Except.bind, pure, Except.pure,
    hlength, hrest]
  rfl

theorem takePlaces_placesText {nano : Nat} (h : nano < 1000000000) :
    takePlaces (placesText nano ++ ['Z']) = .ok (nano, ['Z']) := by
  unfold placesText
  split
  next hzero => rw [hzero]; rfl
  split
  next hmilli =>
    rw [takePlaces_padded (by decide) (by decide) (by omega)]
    have : nano / 1000000 * 10 ^ (9 - 3) = nano := by omega
    rw [this]
  split
  next hmicro =>
    rw [takePlaces_padded (by decide) (by decide) (by omega)]
    have : nano / 1000 * 10 ^ (9 - 6) = nano := by omega
    rw [this]
  next =>
    rw [takePlaces_padded (by decide) (by decide) (by omega)]
    have : nano * 10 ^ (9 - 9) = nano := by omega
    rw [this]

/-! ## Instants -/

/-- A date and time at no distance from universal time is the instant of its fields. -/
theorem ofLocal_zero (t : Instant) (h : hasDates t.year = true) :
    ofLocal (t.year, t.month, t.day) t.hour t.minute t.second t.nano 0 = .ok t := by
  obtain ⟨hhour, hminute, hsecond, hnano⟩ := t.isTime
  have hminutes : (Int.ofNat (t.hour * 60 + t.minute) - 0) % 1440 =
      Int.ofNat (t.hour * 60 + t.minute) := by
    rw [Int.ofNat_eq_natCast]
    omega
  have hnonneg : ¬ Int.ofNat (t.hour * 60 + t.minute) - 0 < 0 := by
    rw [Int.ofNat_eq_natCast]
    omega
  have hday : ¬ 1440 ≤ Int.ofNat (t.hour * 60 + t.minute) - 0 := by
    rw [Int.ofNat_eq_natCast]
    omega
  have htime : (Int.ofNat (t.hour * 60 + t.minute)).toNat = t.hour * 60 + t.minute := rfl
  have hhours : (t.hour * 60 + t.minute) / 60 = t.hour := by omega
  have hrest : (t.hour * 60 + t.minute) % 60 = t.minute := by omega
  simp only [ofLocal, hnonneg, hday, hminutes, htime, hhours, hrest, ofFields?]
  simp [h, t.isDate, t.isTime]

/-- The text of an instant of a year that has dates is read back. -/
theorem parse_render (t : Instant) (h : hasDates t.year = true) : parse t.render = .ok t := by
  obtain ⟨⟨hmonth₁, hmonth₂⟩, hday₁, hday₂⟩ := t.isDate
  obtain ⟨hhour, hminute, hsecond, hnano⟩ := t.isTime
  have hday : t.day ≤ 31 := by
    refine Nat.le_trans hday₂ ?_
    unfold Calendar.daysIn
    split
    next => split <;> decide
    next => split <;> decide
  rw [parse, render, String.toList_ofList, print, read]
  simp only [List.append_assoc, List.cons_append, bind, Except.bind, takeYear_yearText h,
    takeMark_mark '-' (by decide), takeMark_mark ':' (by decide),
    takePart_padded hmonth₁ hmonth₂ (by omega), takePart_padded hday₁ hday (by omega),
    takePart_padded (Nat.zero_le t.hour) (Nat.le_of_lt_succ hhour) (by omega),
    takePart_padded (Nat.zero_le t.minute) (Nat.le_of_lt_succ hminute) (by omega),
    takePart_padded (Nat.zero_le t.second) hsecond (by omega), takeMiddle_letter,
    takePlaces_placesText hnano, trimLeft_cons (c := 'Z') (by decide), takeDistance_zero,
    ofLocal_zero t h]
  rfl

end Instant

end PgSteward
