import Mathlib.Data.Nat.Digits.Defs
import PgSteward.Postgres.Connection

/-!
# Hosts and their ports

A host text is a name alone, or a name and a port with a colon between (`HostText`).  The port is
what stands behind the last colon, so a name may hold colons itself.  A port is a numeral
(`Text.Numeral`): ASCII digits, with leading zeros and one plus sign in front if one likes, and its
value is that of `Nat.ofDigits`.  `hostAndPort_eq_ok_iff` says that these texts are the ones that
are read, and `hostAndPort_ok_or_invalid` that every other text is refused as a whole.
-/

namespace PgSteward

namespace Text

/-! ## Numerals -/

/-- The number that a run of decimal digits stands for. -/
def decimalValue (ds : List Char) : Nat :=
  Nat.ofDigits 10 (ds.reverse.map fun c => c.toNat - '0'.toNat)

/-- A text is a numeral of a number: at least one digit, and at most one plus sign in front. -/
inductive Numeral : List Char → Nat → Prop where
  | plain {ds : List Char} : ds ≠ [] → (∀ c ∈ ds, c.isDigit = true) → Numeral ds (decimalValue ds)
  | plus {ds : List Char} : ds ≠ [] → (∀ c ∈ ds, c.isDigit = true) →
      Numeral ('+' :: ds) (decimalValue ds)

theorem decimalValue_cons (c : Char) (ds : List Char) :
    decimalValue (c :: ds) = (c.toNat - '0'.toNat) * 10 ^ ds.length + decimalValue ds := by
  simp only [decimalValue, List.reverse_cons, List.map_append, List.map_singleton,
    Nat.ofDigits_append, Nat.ofDigits_singleton, List.length_map, List.length_reverse]
  rw [Nat.mul_comm, Nat.add_comm]

theorem digit?_eq_some_iff {c : Char} {d : Nat} :
    digit? c = some d ↔ c.isDigit = true ∧ d = c.toNat - '0'.toNat := by
  have hrange : ('0' ≤ c ∧ c ≤ '9') ↔ c.isDigit = true := by
    simp only [Char.isDigit, Bool.and_eq_true, decide_eq_true_eq, ge_iff_le]
    exact Iff.rfl
  rw [digit?, Option.ite_none_right_eq_some, hrange, Option.some.injEq, eq_comm (a := d)]
  exact Iff.rfl

/-- What was read before counts as often as the digits behind it say. -/
theorem digitsFrom?_eq_some_iff {seen n : Nat} {ds : List Char} :
    digitsFrom? seen ds = some n ↔
      (∀ c ∈ ds, c.isDigit = true) ∧ n = seen * 10 ^ ds.length + decimalValue ds := by
  induction ds generalizing seen with
  | nil => simpa [digitsFrom?, decimalValue] using eq_comm
  | cons c ds ih =>
      rw [digitsFrom?, Option.bind_eq_some_iff]
      simp only [digit?_eq_some_iff, ih, decimalValue_cons, List.length_cons, List.forall_mem_cons]
      constructor
      · rintro ⟨d, ⟨hc, rfl⟩, hds, rfl⟩
        exact ⟨⟨hc, hds⟩, by ring⟩
      · rintro ⟨⟨hc, hds⟩, rfl⟩
        exact ⟨_, ⟨hc, rfl⟩, hds, by ring⟩

theorem dropPlus_cases (cs : List Char) : cs = '+' :: dropPlus cs ∨ dropPlus cs = cs := by
  unfold dropPlus
  split
  next => exact .inl rfl
  next => exact .inr rfl

theorem dropPlus_of_digits {ds : List Char} (h : ∀ c ∈ ds, c.isDigit = true) :
    dropPlus ds = ds := by
  refine (dropPlus_cases ds).resolve_left fun hplus => ?_
  rw [hplus] at h
  exact absurd (h '+' (List.mem_cons_self ..)) (by decide)

theorem natural?_eq_some_iff_digitsFrom? {cs : List Char} {n : Nat} :
    natural? cs = some n ↔ dropPlus cs ≠ [] ∧ digitsFrom? 0 (dropPlus cs) = some n := by
  rw [natural?]
  split
  next h => simp [h]
  next hne => exact (and_iff_right hne).symm

/-- A plus sign is dropped once, and behind it there are digits. -/
theorem natural?_eq_some_iff {cs : List Char} {n : Nat} : natural? cs = some n ↔ Numeral cs n := by
  rw [natural?_eq_some_iff_digitsFrom?, digitsFrom?_eq_some_iff, Nat.zero_mul, Nat.zero_add]
  constructor
  · rintro ⟨hne, hdigits, rfl⟩
    rcases dropPlus_cases cs with hplus | hplain
    · rw [hplus]
      exact .plus hne hdigits
    · rw [hplain] at hne hdigits ⊢
      exact .plain hne hdigits
  · intro h
    cases h with
    | plain hne hdigits =>
        rw [dropPlus_of_digits hdigits]
        exact ⟨hne, hdigits, rfl⟩
    | plus hne hdigits => exact ⟨hne, hdigits, rfl⟩

/-- A number that is read below a limit is that of a numeral. -/
theorem naturalBelow?_eq_some_iff {limit : Nat} {cs : List Char} {n : Nat} :
    naturalBelow? limit cs = some n ↔ Numeral cs n ∧ n < limit := by
  rw [naturalBelow?, Option.filter_eq_some_iff, natural?_eq_some_iff, decide_eq_true_eq]

/-- A port that is read is a numeral of at most the last port. -/
theorem naturalBelow?_portLimit_eq_some_iff {cs : List Char} {n : Nat} :
    naturalBelow? portLimit cs = some n ↔ Numeral cs n ∧ n ≤ 65535 := by
  rw [naturalBelow?_eq_some_iff]
  exact and_congr_right fun _ => Nat.lt_succ_iff

end Text

/-! ## Host texts -/

/-- A host text gives a name and a port: a name without a colon stands for itself and the default
port, and otherwise the port stands behind the last colon. -/
inductive HostText : String → String → Nat → Prop where
  | bare {host : String} : host ≠ "" → ':' ∉ host.toList → HostText host host defaultPort
  | withPort {host name : String} {numeral : List Char} {port : Nat} :
      host.toList = name.toList ++ ':' :: numeral → ':' ∉ numeral → name ≠ "" →
      Text.Numeral numeral port → port ≤ 65535 → HostText host name port

/-- The host texts are what is read. -/
theorem hostAndPort_eq_ok_iff {host name : String} {port : Nat} :
    hostAndPort host = .ok (name, port) ↔ HostText host name port := by
  constructor
  · intro h
    rw [hostAndPort] at h
    cases hcut : Text.cutAtLast ':' host.toList with
    | none =>
        rw [hcut] at h
        dsimp only at h
        split at h
        next => cases h
        next hne =>
          cases h
          exact .bare (by simpa using hne) (Text.cutAtLast_eq_none_iff.mp hcut)
    | some parts =>
        obtain ⟨front, numeral⟩ := parts
        obtain ⟨hlast, hhost⟩ := Text.cutAtLast_eq_some_iff.mp hcut
        cases hport : Text.naturalBelow? Text.portLimit numeral with
        | none => simp [hcut, hport] at h
        | some n =>
            simp only [hcut, hport] at h
            obtain ⟨hnumeral, hle⟩ := Text.naturalBelow?_portLimit_eq_some_iff.mp hport
            split at h
            next => cases h
            next hne =>
              cases h
              refine .withPort ?_ hlast (by simpa using hne) hnumeral hle
              rw [hhost, String.toList_ofList]
  · intro h
    cases h with
    | bare hne hfree => simp [hostAndPort, Text.cutAtLast_eq_none_iff.mpr hfree, hne]
    | withPort hhost hlast hne hnumeral hle =>
        have hcut := Text.cutAtLast_eq_some_iff.mpr ⟨hlast, hhost⟩
        have hport := Text.naturalBelow?_portLimit_eq_some_iff.mpr ⟨hnumeral, hle⟩
        simp [hostAndPort, hcut, hport, hne]

/-- A text that is no host text is refused, and the whole of it is named. -/
theorem hostAndPort_ok_or_invalid (host : String) :
    (∃ name port, hostAndPort host = .ok (name, port)) ∨
      hostAndPort host = .error (.invalidHost host) := by
  rw [hostAndPort]
  split
  next =>
    split
    next => exact .inr rfl
    next => exact .inl ⟨_, _, rfl⟩
  next =>
    split
    next => exact .inr rfl
    next =>
      split
      next => exact .inr rfl
      next => exact .inl ⟨_, _, rfl⟩

end PgSteward
