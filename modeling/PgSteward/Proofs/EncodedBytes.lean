import Mathlib.Tactic.IntervalCases
import PgSteward.Text.Percent
import PgSteward.Text.Utf8

/-!
# Texts as bytes

The bytes of a text are read back as the text (`ofUtf8_toUtf8`), and bytes of which some are percent
encoded as the bytes (`percentDecode_of_writing`).  Texts are in the order of their bytes
(`toUtf8_lt_toUtf8`).

A *writing* of a sequence of bytes has for each byte either the byte itself or a percent sign and
the two digits of the byte, each digit in either case.  A percent sign of the sequence is never left
as it is, so a writing stands for one sequence only.  `PercentWriting` says what a writing is
without the reader.
-/

namespace PgSteward.Text

/-! ## Percent signs -/

/-- The byte of a digit to the base sixteen, in upper or in lower case. -/
def hexDigitByte (upper : Bool) (n : Nat) : UInt8 :=
  UInt8.ofNat (if upper then n.digitChar.toUpper else n.digitChar).toNat

/-- The second sequence is the first with some of its bytes percent encoded. -/
inductive PercentWriting : List UInt8 → List UInt8 → Prop where
  | nil : PercentWriting [] []
  /-- A byte other than the percent sign may stand for itself. -/
  | literal {b : UInt8} {bytes written : List UInt8} (h : b ≠ 0x25)
      (rest : PercentWriting bytes written) : PercentWriting (b :: bytes) (b :: written)
  /-- Every byte may stand as its two digits. -/
  | encoded (b : UInt8) (high low : Bool) {bytes written : List UInt8}
      (rest : PercentWriting bytes written) :
      PercentWriting (b :: bytes)
        (0x25 :: hexDigitByte high (b.toNat / 16) :: hexDigitByte low (b.toNat % 16) :: written)

/-- The writing that keeps some bytes and has all digits in one case. -/
def percentEncode (kept : UInt8 → Bool) (upper : Bool) (bytes : List UInt8) : List UInt8 :=
  bytes.flatMap fun b =>
    if kept b && b != 0x25 then [b]
    else [0x25, hexDigitByte upper (b.toNat / 16), hexDigitByte upper (b.toNat % 16)]

theorem percentEncode_writing (kept : UInt8 → Bool) (upper : Bool) (bytes : List UInt8) :
    PercentWriting bytes (percentEncode kept upper bytes) := by
  induction bytes with
  | nil => exact .nil
  | cons b bytes ih =>
      rw [percentEncode, List.flatMap_cons]
      split
      next h =>
        rw [Bool.and_eq_true, bne_iff_ne] at h
        exact .literal h.2 ih
      next => exact .encoded b upper upper ih

theorem hexByte?_hexDigitByte (upper : Bool) {n : Nat} (h : n < 16) :
    hexByte? (hexDigitByte upper n) = some n := by
  cases upper <;> interval_cases n <;> decide

/-- A percent sign and the digits of a byte stand for the byte. -/
theorem percentByte?_digits (b : UInt8) (high low : Bool) :
    percentByte? 0x25 (hexDigitByte high (b.toNat / 16)) (hexDigitByte low (b.toNat % 16)) =
      some b := by
  have hhigh := hexByte?_hexDigitByte high (n := b.toNat / 16) (by have := b.toNat_lt; omega)
  have hlow := hexByte?_hexDigitByte low (n := b.toNat % 16) (by omega)
  rw [percentByte?, if_pos rfl, hhigh, hlow, Option.bind_some, Option.map_some, Nat.div_add_mod',
    UInt8.ofNat_toNat]

/-- A byte other than the percent sign stands for itself, whatever follows. -/
theorem percentDecode_cons_of_ne {b : UInt8} (h : b ≠ 0x25) (rest : List UInt8) :
    percentDecode (b :: rest) = b :: percentDecode rest := by
  match rest with
  | [] | [_] => rfl
  | _ :: _ :: _ => simp [percentDecode, percentByte?, h]

/-- A writing is read as the bytes it was made from. -/
theorem percentDecode_of_writing {bytes written : List UInt8} (h : PercentWriting bytes written) :
    percentDecode written = bytes := by
  induction h with
  | nil => rfl
  | literal hb _ ih => rw [percentDecode_cons_of_ne hb, ih]
  | encoded b high low _ ih => rw [percentDecode, percentByte?_digits, ih]

/-! ## UTF-8 -/

/-- The last six bits of a number, as a byte that continues a character. -/
theorem isContinuation_ofNat (n : Nat) : isContinuation (UInt8.ofNat (n % 64 + 128)) = true := by
  simp only [isContinuation, Bool.and_eq_true, decide_eq_true_eq, UInt8.le_iff_toNat_le,
    UInt8.toNat_ofNat_of_lt' (n := n % 64 + 128) (show _ < 256 by omega), UInt8.reduceToNat]
  omega

theorem payload_ofNat (n : Nat) : payload (UInt8.ofNat (n % 64 + 128)) = n % 64 := by
  rw [payload, UInt8.toNat_ofNat_of_lt' (show _ < 256 by omega)]
  omega

/-- The second byte of three of a number of the basic plane that is no half of a pair. -/
theorem secondOfThree_ofNat {n : Nat} (hmin : 0x800 ≤ n) (hmax : n < 0x10000)
    (hpair : n < 0xD800 ∨ 0xDFFF < n) :
    secondOfThree (UInt8.ofNat (n / 4096 % 16 + 224)) (UInt8.ofNat (n / 64 % 64 + 128)) = true := by
  have hfirst := UInt8.toNat_ofNat_of_lt' (n := n / 4096 % 16 + 224) (show _ < 256 by omega)
  have hsecond := UInt8.toNat_ofNat_of_lt' (n := n / 64 % 64 + 128) (show _ < 256 by omega)
  unfold secondOfThree
  split
  next h =>
    rw [← UInt8.toNat_inj, hfirst] at h
    simp only [Bool.and_eq_true, decide_eq_true_eq, UInt8.le_iff_toNat_le, hsecond,
      UInt8.reduceToNat] at h ⊢
    omega
  split
  next h =>
    rw [← UInt8.toNat_inj, hfirst] at h
    simp only [Bool.and_eq_true, decide_eq_true_eq, UInt8.le_iff_toNat_le, hsecond,
      UInt8.reduceToNat] at h ⊢
    omega
  next => exact isContinuation_ofNat _

/-- The second byte of four of a number above the basic plane. -/
theorem secondOfFour_ofNat {n : Nat} (hmin : 0x10000 ≤ n) (hmax : n < 0x110000) :
    secondOfFour (UInt8.ofNat (n / 262144 % 8 + 240)) (UInt8.ofNat (n / 4096 % 64 + 128)) =
      true := by
  have hfirst := UInt8.toNat_ofNat_of_lt' (n := n / 262144 % 8 + 240) (show _ < 256 by omega)
  have hsecond := UInt8.toNat_ofNat_of_lt' (n := n / 4096 % 64 + 128) (show _ < 256 by omega)
  unfold secondOfFour
  split
  next h =>
    rw [← UInt8.toNat_inj, hfirst] at h
    simp only [Bool.and_eq_true, decide_eq_true_eq, UInt8.le_iff_toNat_le, hsecond,
      UInt8.reduceToNat] at h ⊢
    omega
  split
  next h =>
    rw [← UInt8.toNat_inj, hfirst] at h
    simp only [Bool.and_eq_true, decide_eq_true_eq, UInt8.le_iff_toNat_le, hsecond,
      UInt8.reduceToNat] at h ⊢
    omega
  next => exact isContinuation_ofNat _

/-! One lemma for each width says what a sequence starts with that starts with the bytes of a
number of that width. -/

theorem utf8Head_one {n : Nat} (h : n < 0x80) (rest : List UInt8) :
    utf8Head (UInt8.ofNat n) rest = .char (Char.ofNat n) 1 rest := by
  have hfirst := UInt8.toNat_ofNat_of_lt' (n := n) (show _ < 256 by omega)
  rw [utf8Head, if_pos, hfirst]
  rw [UInt8.lt_iff_toNat_lt, hfirst]
  exact h

theorem utf8Head_two {n : Nat} (hmin : 0x80 ≤ n) (hmax : n < 0x800) (rest : List UInt8) :
    utf8Head (UInt8.ofNat (n / 64 % 32 + 192)) (UInt8.ofNat (n % 64 + 128) :: rest) =
      .char (Char.ofNat n) 2 rest := by
  have hfirst := UInt8.toNat_ofNat_of_lt' (n := n / 64 % 32 + 192) (show _ < 256 by omega)
  have hvalue : (n / 64 % 32 + 192) % 32 * 64 + n % 64 = n := by omega
  simp only [utf8Head, UInt8.lt_iff_toNat_lt, UInt8.le_iff_toNat_le, hfirst, UInt8.reduceToNat,
    Bool.and_eq_true, decide_eq_true_eq]
  rw [if_neg (by omega), if_pos (by omega)]
  simp only [headOfTwo, isContinuation_ofNat, if_true, payload_ofNat, hfirst, hvalue]

theorem utf8Head_three {n : Nat} (hmin : 0x800 ≤ n) (hmax : n < 0x10000)
    (hpair : n < 0xD800 ∨ 0xDFFF < n) (rest : List UInt8) :
    utf8Head (UInt8.ofNat (n / 4096 % 16 + 224))
        (UInt8.ofNat (n / 64 % 64 + 128) :: UInt8.ofNat (n % 64 + 128) :: rest) =
      .char (Char.ofNat n) 3 rest := by
  have hfirst := UInt8.toNat_ofNat_of_lt' (n := n / 4096 % 16 + 224) (show _ < 256 by omega)
  have hvalue : (n / 4096 % 16 + 224) % 16 * 4096 + n / 64 % 64 * 64 + n % 64 = n := by omega
  simp only [utf8Head, UInt8.lt_iff_toNat_lt, UInt8.le_iff_toNat_le, hfirst, UInt8.reduceToNat,
    Bool.and_eq_true, decide_eq_true_eq]
  rw [if_neg (by omega), if_neg (by omega), if_pos (by omega)]
  simp only [headOfThree, secondOfThree_ofNat hmin hmax hpair, Bool.not_true, Bool.false_eq_true,
    if_false, isContinuation_ofNat, if_true, payload_ofNat, hfirst, hvalue]

theorem utf8Head_four {n : Nat} (hmin : 0x10000 ≤ n) (hmax : n < 0x110000) (rest : List UInt8) :
    utf8Head (UInt8.ofNat (n / 262144 % 8 + 240))
        (UInt8.ofNat (n / 4096 % 64 + 128) :: UInt8.ofNat (n / 64 % 64 + 128) ::
          UInt8.ofNat (n % 64 + 128) :: rest) =
      .char (Char.ofNat n) 4 rest := by
  have hfirst := UInt8.toNat_ofNat_of_lt' (n := n / 262144 % 8 + 240) (show _ < 256 by omega)
  have hvalue : (n / 262144 % 8 + 240) % 8 * 262144 + n / 4096 % 64 * 4096 + n / 64 % 64 * 64 +
      n % 64 = n := by omega
  simp only [utf8Head, UInt8.lt_iff_toNat_lt, UInt8.le_iff_toNat_le, hfirst, UInt8.reduceToNat,
    Bool.and_eq_true, decide_eq_true_eq]
  rw [if_neg (by omega), if_neg (by omega), if_neg (by omega), if_pos (by omega)]
  simp only [headOfFour, secondOfFour_ofNat hmin hmax, Bool.not_true, Bool.false_eq_true, if_false,
    isContinuation_ofNat, if_true, payload_ofNat, hfirst, hvalue]

/-- A sequence that starts with the bytes of a character starts with the character. -/
theorem utf8Head_encodeChar (c : Char) (rest : List UInt8) :
    ∃ first more width, String.utf8EncodeChar c ++ rest = first :: more ∧
      utf8Head first more = .char c width rest := by
  have hvalue : c.val.toNat = c.toNat := rfl
  have hvalid := c.valid
  simp only [UInt32.isValidChar, Nat.isValidChar, hvalue] at hvalid
  unfold String.utf8EncodeChar
  simp only [hvalue]
  split
  next => exact ⟨_, _, 1, rfl, by
    rw [utf8Head_one (by omega), Char.ofNat_toNat]
    rfl⟩
  split
  next => exact ⟨_, _, 2, rfl, by
    rw [List.append_eq, List.cons_append, utf8Head_two (by omega) (by omega), Char.ofNat_toNat]
    rfl⟩
  split
  next => exact ⟨_, _, 3, rfl, by
    rw [List.append_eq, List.cons_append, List.cons_append,
      utf8Head_three (by omega) (by omega) (by omega), Char.ofNat_toNat]
    rfl⟩
  next => exact ⟨_, _, 4, rfl, by
    rw [List.append_eq, List.cons_append, List.cons_append, List.cons_append,
      utf8Head_four (by omega) (by omega), Char.ofNat_toNat]
    rfl⟩

theorem utf8From_cons_of_char {start width : Nat} {first : UInt8} {more rest : List UInt8}
    {c : Char}
    (h : utf8Head first more = .char c width rest) :
    utf8From start (first :: more) = (utf8From (start + width) rest).map (c :: ·) := by
  rw [utf8From]
  split
  next hhead =>
    rw [h] at hhead
    cases hhead
    cases utf8From (start + width) rest <;> rfl
  next hhead =>
    rw [h] at hhead
    cases hhead

theorem utf8From_toUtf8 (cs : List Char) (start : Nat) :
    utf8From start (toUtf8 cs) = .ok cs := by
  induction cs generalizing start with
  | nil => simp [toUtf8, utf8From]
  | cons c cs ih =>
      obtain ⟨first, more, width, hbytes, hhead⟩ := utf8Head_encodeChar c (toUtf8 cs)
      have hcons : toUtf8 (c :: cs) = first :: more := by
        rw [← hbytes]
        rfl
      rw [hcons, utf8From_cons_of_char hhead, ih]
      rfl

/-- The bytes of a text are read back as the text. -/
theorem ofUtf8_toUtf8 (cs : List Char) : ofUtf8 (toUtf8 cs) = .ok cs := utf8From_toUtf8 cs 0

/-! ## Order -/

theorem cons_lt_cons_of_lt {a b : Nat} (hab : a < b) (hb : b < 256) (rest rest' : List UInt8) :
    UInt8.ofNat a :: rest < UInt8.ofNat b :: rest' := by
  refine List.cons_lt_cons_iff.mpr (.inl ?_)
  rw [UInt8.lt_iff_toNat_lt, UInt8.toNat_ofNat_of_lt' (hab.trans hb), UInt8.toNat_ofNat_of_lt' hb]
  exact hab

theorem cons_lt_cons_of_le {a b : Nat} (hab : a ≤ b) (hb : b < 256) {rest rest' : List UInt8}
    (h : a = b → rest < rest') : UInt8.ofNat a :: rest < UInt8.ofNat b :: rest' := by
  rcases Nat.lt_or_eq_of_le hab with hlt | rfl
  · exact cons_lt_cons_of_lt hlt hb rest rest'
  · exact List.cons_lt_cons_iff.mpr (.inr ⟨rfl, h rfl⟩)

/-- The bytes of the smaller of two characters are the smaller ones, whatever follows. -/
theorem encodeChar_append_lt {c d : Char} (h : c < d) (rest rest' : List UInt8) :
    String.utf8EncodeChar c ++ rest < String.utf8EncodeChar d ++ rest' := by
  have hlt : c.val.toNat < d.val.toNat := h
  have hvalid := d.valid
  simp only [UInt32.isValidChar, Nat.isValidChar] at hvalid
  unfold String.utf8EncodeChar
  dsimp only
  generalize c.val.toNat = m at hlt ⊢
  generalize d.val.toNat = n at hlt hvalid ⊢
  -- Characters of different widths differ in the first byte.
  split
  next hm =>
    split
    next => exact cons_lt_cons_of_lt (by omega) (by omega) _ _
    split
    next => exact cons_lt_cons_of_lt (by omega) (by omega) _ _
    split
    next => exact cons_lt_cons_of_lt (by omega) (by omega) _ _
    next => exact cons_lt_cons_of_lt (by omega) (by omega) _ _
  rw [if_neg (show ¬n ≤ 127 by omega)]
  split
  next hm =>
    split
    next =>
      exact cons_lt_cons_of_le (by omega) (by omega) fun _ =>
        cons_lt_cons_of_lt (by omega) (by omega) _ _
    split
    next => exact cons_lt_cons_of_lt (by omega) (by omega) _ _
    next => exact cons_lt_cons_of_lt (by omega) (by omega) _ _
  rw [if_neg (show ¬n ≤ 2047 by omega)]
  split
  next hm =>
    split
    next =>
      exact cons_lt_cons_of_le (by omega) (by omega) fun _ =>
        cons_lt_cons_of_le (by omega) (by omega) fun _ =>
          cons_lt_cons_of_lt (by omega) (by omega) _ _
    next => exact cons_lt_cons_of_lt (by omega) (by omega) _ _
  rw [if_neg (show ¬n ≤ 65535 by omega)]
  exact cons_lt_cons_of_le (by omega) (by omega) fun _ =>
    cons_lt_cons_of_le (by omega) (by omega) fun _ =>
      cons_lt_cons_of_le (by omega) (by omega) fun _ =>
        cons_lt_cons_of_lt (by omega) (by omega) _ _

/-- Texts that are in order are in order by their bytes, too. -/
theorem toUtf8_lt_toUtf8 {cs ds : List Char} (h : cs < ds) : toUtf8 cs < toUtf8 ds := by
  induction h with
  | @nil d ds =>
      obtain ⟨first, more, -, hbytes, -⟩ := utf8Head_encodeChar d (toUtf8 ds)
      show [] < String.utf8EncodeChar d ++ toUtf8 ds
      rw [hbytes]
      exact List.nil_lt_cons first more
  | rel h => exact encodeChar_append_lt h _ _
  | cons _ ih => exact List.append_left_lt ih

end PgSteward.Text
