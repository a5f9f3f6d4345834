/-!
# UTF-8

Texts as sequences of bytes.  Reading stops at the first sequence that is no character and says
where: the number of bytes before it, and its length if the text goes on after it.  The length of a
bad sequence is the longest start it shares with some character, at least one byte.  A text that
ends inside a character has a fault without a length.
-/

namespace PgSteward.Text

/-- Where a sequence of bytes stops being UTF-8. -/
structure Utf8Fault where
  /-- The number of bytes in front of the fault. -/
  validUpTo : Nat
  /-- The number of bad bytes, absent when the text ends inside a character. -/
  length : Option Nat
deriving DecidableEq, Repr

/-- The text of a fault. -/
def Utf8Fault.message (f : Utf8Fault) : String :=
  match f.length with
  | some n => s!"invalid utf-8 sequence of {n} bytes from index {f.validUpTo}"
  | none => s!"incomplete utf-8 byte sequence from index {f.validUpTo}"

/-- What a sequence of bytes starts with. -/
inductive Utf8Head where
  /-- A character of some width, and the bytes after it. -/
  | char (c : Char) (width : Nat) (rest : List UInt8)
  /-- No character; the number of bad bytes unless the text ends here. -/
  | bad (length : Option Nat)

/-- Whether a byte continues a character. -/
def isContinuation (b : UInt8) : Bool := 0x80 ≤ b && b ≤ 0xBF

/-- The payload of a byte that continues a character. -/
def payload (b : UInt8) : Nat := b.toNat % 64

/-- Whether the second byte of a character of three bytes is in range. -/
def secondOfThree (first second : UInt8) : Bool :=
  if first = 0xE0 then 0xA0 ≤ second && second ≤ 0xBF
  else if first = 0xED then 0x80 ≤ second && second ≤ 0x9F
  else isContinuation second

/-- Whether the second byte of a character of four bytes is in range. -/
def secondOfFour (first second : UInt8) : Bool :=
  if first = 0xF0 then 0x90 ≤ second && second ≤ 0xBF
  else if first = 0xF4 then 0x80 ≤ second && second ≤ 0x8F
  else isContinuation second

/-- A character of two bytes. -/
def headOfTwo (first : UInt8) : List UInt8 → Utf8Head
  | [] => .bad none
  | b :: rest =>
      if isContinuation b then .char (Char.ofNat ((first.toNat % 32) * 64 + payload b)) 2 rest
      else .bad (some 1)

/-- A character of three bytes. -/
def headOfThree (first : UInt8) : List UInt8 → Utf8Head
  | [] => .bad none
  | b :: bs =>
      if !secondOfThree first b then .bad (some 1)
      else
        match bs with
        | [] => .bad none
        | c :: rest =>
            if isContinuation c then
              .char (Char.ofNat ((first.toNat % 16) * 4096 + payload b * 64 + payload c)) 3 rest
            else .bad (some 2)

/-- A character of four bytes. -/
def headOfFour (first : UInt8) : List UInt8 → Utf8Head
  | [] => .bad none
  | b :: bs =>
      if !secondOfFour first b then .bad (some 1)
      else
        match bs with
        | [] => .bad none
        | c :: cs =>
            if !isContinuation c then .bad (some 2)
            else
              match cs with
              | [] => .bad none
              | d :: rest =>
                  if isContinuation d then
                    .char (Char.ofNat ((first.toNat % 8) * 262144 + payload b * 4096 +
                      payload c * 64 + payload d)) 4 rest
                  else .bad (some 3)

/-- What the byte `first` and the bytes after it start with. -/
def utf8Head (first : UInt8) (rest : List UInt8) : Utf8Head :=
  if first < 0x80 then .char (Char.ofNat first.toNat) 1 rest
  else if 0xC2 ≤ first && first ≤ 0xDF then headOfTwo first rest
  else if 0xE0 ≤ first && first ≤ 0xEF then headOfThree first rest
  else if 0xF0 ≤ first && first ≤ 0xF4 then headOfFour first rest
  else .bad (some 1)

theorem headOfTwo_length {first : UInt8} {bytes rest : List UInt8} {c : Char} {width : Nat}
    (h : headOfTwo first bytes = .char c width rest) : rest.length ≤ bytes.length := by
  unfold headOfTwo at h
  grind

theorem headOfThree_length {first : UInt8} {bytes rest : List UInt8} {c : Char} {width : Nat}
    (h : headOfThree first bytes = .char c width rest) : rest.length ≤ bytes.length := by
  unfold headOfThree at h
  grind

theorem headOfFour_length {first : UInt8} {bytes rest : List UInt8} {c : Char} {width : Nat}
    (h : headOfFour first bytes = .char c width rest) : rest.length ≤ bytes.length := by
  unfold headOfFour at h
  grind

/-- The bytes after a character are among the bytes after its first. -/
theorem utf8Head_length {first : UInt8} {bytes rest : List UInt8} {c : Char} {width : Nat}
    (h : utf8Head first bytes = .char c width rest) : rest.length ≤ bytes.length := by
  unfold utf8Head at h
  split at h
  · cases h; exact Nat.le_refl _
  · split at h
    · exact headOfTwo_length h
    · split at h
      · exact headOfThree_length h
      · split at h
        · exact headOfFour_length h
        · cases h

/-- The characters of a sequence of bytes that starts after `start` others. -/
def utf8From (start : Nat) : List UInt8 → Except Utf8Fault (List Char)
  | [] => .ok []
  | b :: bs =>
      match h : utf8Head b bs with
      | .char c width rest =>
          have : rest.length ≤ bs.length := utf8Head_length h
          match utf8From (start + width) rest with
          | .ok cs => .ok (c :: cs)
          | .error e => .error e
      | .bad length => .error ⟨start, length⟩
termination_by bytes => bytes.length

/-- The characters of a sequence of bytes. -/
def ofUtf8 (bytes : List UInt8) : Except Utf8Fault (List Char) := utf8From 0 bytes

/-- The bytes of a text. -/
def toUtf8 (cs : List Char) : List UInt8 := cs.flatMap String.utf8EncodeChar

example : (Utf8Fault.mk 2 (some 1)).message = "invalid utf-8 sequence of 1 bytes from index 2" := by
  decide

end PgSteward.Text
