import PgSteward.Proofs.InstantText
import PgSteward.Proofs.PrintedJson
import PgSteward.Resource.HostCredentials
import PgSteward.Resource.ServiceUser
import PgSteward.Resource.User

/-!
# Resources and their wire forms

A value of a resource type is decoded from its encoding, although members without a value are left
out and a write intent shares one object with its access intent.  The parser puts the members of an
object in order, so every round trip is proved under an arbitrary *reordering*, a function that
changes nothing but the order of members (`Json.Reorders`).

A slot of a record follows from what the object has under the name of the member
(`required_of_find`, `optional_of_find`, `nullable_of_find`), and a record none of whose slots has a
fault passes its check.
-/

namespace PgSteward

variable {α : Type}

/-! ## Members -/

namespace JsonMembers

@[simp] theorem find?_append (name : String) (ms ns : JsonMembers) :
    find? name (ms ++ ns) = (find? name ms).or (find? name ns) := by
  induction ms with
  | nil => simp [find?]
  | cons m ms ih =>
      by_cases h : m.1 = name
      · simp [find?, h]
      · simp [find?, h, ih]

@[simp] theorem find?_written (name other : String) (j : Json) :
    find? name (written other j) = if other = name then some j else none := rfl

@[simp] theorem find?_writtenIf (name other : String) (encode : α → Json) (a? : Option α) :
    find? name (writtenIf other encode a?) = if other = name then a?.map encode else none := by
  cases a? with
  | none => simp [writtenIf, find?]
  | some a => rfl

theorem find?_putOrdered (name other : String) (j : Json) (ms : JsonMembers) :
    find? other (putOrdered name j ms) = if name = other then some j else find? other ms := by
  induction ms with
  | nil => rfl
  | cons m ms ih =>
      obtain ⟨n, i⟩ := m
      unfold putOrdered
      split
      next h =>
        subst h
        by_cases ho : n = other <;> simp [find?, ho]
      split
      next => rfl
      next h _ =>
        by_cases ho : n = other
        · subst ho
          simp [find?, Ne.symm h]
        · simp [find?, ho, ih]

theorem find?_eq_none_of_fresh {name : String} {ms : JsonMembers} (h : name ∉ ms.map Prod.fst) :
    find? name ms = none := by
  induction ms with
  | nil => rfl
  | cons m ms ih =>
      rw [List.map_cons, List.mem_cons, not_or] at h
      obtain ⟨n, i⟩ := m
      rw [find?, if_neg (Ne.symm h.1), ih h.2]

@[simp] theorem forall_mem_written {name : String} {j : Json} {p : String × Json → Prop} :
    (∀ m ∈ written name j, p m) ↔ p (name, j) := List.forall_mem_singleton

@[simp] theorem forall_mem_writtenIf {name : String} {encode : α → Json} {a? : Option α}
    {p : String × Json → Prop} :
    (∀ m ∈ writtenIf name encode a?, p m) ↔ ∀ a, a? = some a → p (name, encode a) := by
  cases a? <;> simp [writtenIf]

end JsonMembers

namespace Json

/-! ## Reorderings -/

/-- A function that changes nothing of a value but the order of the members of its objects. -/
structure Reorders (f : Json → Json) : Prop where
  text (s : String) : f (.text s) = .text s
  bool (b : Bool) : f (.bool b) = .bool b
  list (items : List Json) : f (.list items) = .list (items.map f)
  /-- An object with distinct names keeps what it has under each of them. -/
  object (ms : JsonMembers) (names : (ms.map Prod.fst).Nodup) :
    ∃ ns : JsonMembers, f (.object ms) = .object ns ∧ ∀ name, ns.find? name = (ms.find? name).map f

/-- The object of a plain value keeps what it has under each name. -/
theorem Reorders.object_of_plain {f : Json → Json} (hf : Reorders f) {depth : Nat}
    {ms : JsonMembers} (h : Plain depth (.object ms)) :
    ∃ ns : JsonMembers, f (.object ms) = .object ns ∧
      ∀ name, ns.find? name = (ms.find? name).map f := by
  cases h with
  | object names => exact hf.object ms names

theorem reorders_id : Reorders id where
  text _ := rfl
  bool _ := rfl
  list items := by rw [List.map_id]; rfl
  object ms _ := ⟨ms, rfl, fun name => by rw [Option.map_id]; rfl⟩

/-- What is put in order last is found first, and names that are distinct do not get in the way of
each other. -/
theorem find?_sortedMembers {ms : JsonMembers} (names : (ms.map Prod.fst).Nodup)
    (seen : JsonMembers) (name : String) :
    (sortedMembers seen ms).find? name = ((ms.find? name).map sorted).or (seen.find? name) := by
  induction ms generalizing seen with
  | nil => simp [sortedMembers, JsonMembers.find?]
  | cons m ms ih =>
      obtain ⟨n, j⟩ := m
      rw [List.map_cons, List.nodup_cons] at names
      rw [sortedMembers, ih names.2, sortedMember, JsonMembers.find?_putOrdered, JsonMembers.find?]
      split
      next h =>
        subst h
        rw [JsonMembers.find?_eq_none_of_fresh names.1]
        rfl
      next => rfl

theorem reorders_sorted : Reorders sorted where
  text _ := by simp [sorted]
  bool _ := by simp [sorted]
  list items := by rw [sorted, sortedItems_eq_map]
  object ms names :=
    ⟨sortedMembers [] ms, by rw [sorted], fun name => by
      rw [find?_sortedMembers names, JsonMembers.find?, Option.or_none]⟩

/-- A value is decoded from its encoding, and from what the parser makes of its text. -/
def RoundTrips (decode : Decoder α) (encode : α → Json) (a : α) : Prop :=
  decode (encode a) = .ok a ∧ ∃ j, Json.parse (encode a).compact = .ok j ∧ decode j = .ok a

theorem roundTrips_of_reordered {decode : Decoder α} {encode : α → Json} {a : α} {depth : Nat}
    (hplain : Plain depth (encode a)) (hdepth : depth < depthLimit)
    (h : ∀ f, Reorders f → decode (f (encode a)) = .ok a) : RoundTrips decode encode a :=
  ⟨h id reorders_id, sorted (encode a), parse_compact hplain hdepth, h sorted reorders_sorted⟩

/-! ## Lists and options -/

/-- A list is decoded from its encoded items. -/
theorem toList_reordered {f : Json → Json} (hf : Reorders f) {item : Decoder α} {encode : α → Json}
    {as : List α} (h : ∀ a ∈ as, item (f (encode a)) = .ok a) :
    toList item (f (.list (as.map encode))) = .ok as := by
  rw [hf.list, toList]
  induction as with
  | nil => rfl
  | cons a as ih =>
      rw [List.map_cons, List.map_cons, toItems, h a (List.mem_cons_self ..),
        ih fun b hb => h b (List.mem_cons_of_mem _ hb)]

/-- A value that does not decode from null is decoded as one that is there. -/
theorem nullable_of_ok {decode : Decoder α} (hnull : ∃ e, decode .null = .error e) {j : Json}
    {a : α} (h : decode j = .ok a) : nullable decode j = .ok (some a) := by
  unfold nullable
  split
  next =>
    obtain ⟨e, he⟩ := hnull
    rw [he] at h
    cases h
  next => rw [h]; rfl

end Json

/-! ## Slots -/

namespace Record

variable {ms : JsonMembers} {name : String} {decode : Decoder α}

theorem required_of_find (place : Nat) {j : Json} {a : α} (hfind : ms.find? name = some j)
    (hdecode : decode j = .ok a) :
    (byName ms).required place name decode = ⟨name, some a, none, none⟩ := by
  simp [required, slot, source?, hfind, hdecode]

theorem optional_of_find (place : Nat) {j : Json} {a : α} (hfind : ms.find? name = some j)
    (hdecode : decode j = .ok a) :
    (byName ms).optional place name decode = ⟨name, some a, none, none⟩ := by
  simp [optional, slot, source?, hfind, hdecode]

theorem optional_of_absent (place : Nat) (hfind : ms.find? name = none) :
    (byName ms).optional place name decode = ⟨name, none, none, none⟩ := by
  simp [optional, slot, source?, hfind]

/-- A member that is written when there is a value has a slot that stands for the value. -/
theorem nullable_of_find (place : Nat) {encode : α → Json} {a? : Option α}
    (hfind : ms.find? name = a?.map encode)
    (hdecode : ∀ a, a? = some a → decode (encode a) = .ok a)
    (hnull : ∃ e, decode .null = .error e) :
    (byName ms).optional place name (Json.nullable decode) = ⟨name, a?.map some, none, none⟩ := by
  cases a? with
  | none => exact optional_of_absent place hfind
  | some a => exact optional_of_find place hfind (Json.nullable_of_ok hnull (hdecode a rfl))

theorem nullable_text (place : Nat) {s? : Option String}
    (h : ms.find? name = s?.map Json.text) :
    (byName ms).optional place name (Json.nullable Json.toText) = ⟨name, s?.map some, none, none⟩ :=
  nullable_of_find place h (fun _ _ => rfl) ⟨_, rfl⟩

/-- A list that is written unless it is empty has a slot that stands for it. -/
theorem list_of_find {f : Json → Json} (hf : Json.Reorders f) (place : Nat) {item : Decoder α}
    {encode : α → Json} {as : List α}
    (hfind : ms.find? name = if as.isEmpty then none else some (f (.list (as.map encode))))
    (h : ∀ a ∈ as, item (f (encode a)) = .ok a) :
    (byName ms).optional place name (Json.toList item) =
      ⟨name, if as.isEmpty then none else some as, none, none⟩ := by
  by_cases hempty : as.isEmpty = true
  · rw [if_pos hempty] at hfind ⊢
    exact optional_of_absent place hfind
  · rw [if_neg hempty] at hfind ⊢
    exact optional_of_find place hfind (Json.toList_reordered hf h)

theorem required_text (place : Nat) {s : String} (h : ms.find? name = some (.text s)) :
    (byName ms).required place name Json.toText = ⟨name, some s, none, none⟩ :=
  required_of_find place h rfl

theorem optional_text (place : Nat) {s : String} (h : ms.find? name = some (.text s)) :
    (byName ms).optional place name Json.toText = ⟨name, some s, none, none⟩ :=
  optional_of_find place h rfl

theorem optional_bool (place : Nat) {b : Bool} (h : ms.find? name = some (.bool b)) :
    (byName ms).optional place name Json.toBool = ⟨name, some b, none, none⟩ :=
  optional_of_find place h rfl

/-- A record of slots without faults passes its check. -/
theorem check_of_no_faults {slots : List SlotFault}
    (h : ∀ s ∈ slots, s.fault? = none ∧ s.absent? = none) : (byName ms).check slots = .ok () := by
  have hfault : firstByName none slots = none := by
    induction slots with
    | nil => rfl
    | cons s rest ih =>
        rw [firstByName, (h s (List.mem_cons_self ..)).1]
        exact ih fun t ht => h t (List.mem_cons_of_mem _ ht)
  have habsent : slots.findSome? (·.absent?) = none :=
    List.findSome?_eq_none_iff.mpr fun s hs => (h s hs).2
  simp [check, fault?, hfault, habsent]

end Record

namespace Slot

@[simp] theorem get_some (name : String) (a : α) :
    (⟨name, some a, none, none⟩ : Slot α).get = .ok a := rfl

@[simp] theorem getD_some (name : String) (a default : α) :
    (⟨name, some a, none, none⟩ : Slot α).getD default = a := rfl

@[simp] theorem getD_none (name : String) (default : α) :
    (⟨name, none, none, none⟩ : Slot α).getD default = default := rfl

@[simp] theorem getD_nullable (name : String) (a? : Option α) :
    (⟨name, a?.map some, none, none⟩ : Slot (Option α)).getD none = a? := by
  cases a? <;> rfl

@[simp] theorem getD_list (name : String) (as : List α) :
    (⟨name, if as.isEmpty then none else some as, none, none⟩ : Slot (List α)).getD [] = as := by
  cases as <;> rfl

end Slot

section Resources

variable {f : Json → Json}

/-! ## References -/

namespace KeyOf

theorem plain (n : Nat) (k : KeyOf) : Json.Plain (n + 1) k.encode := by
  refine .object (by simp) ?_
  simp [Json.Plain.text]

theorem decode_reordered (hf : Json.Reorders f) (k : KeyOf) : decode (f k.encode) = .ok k := by
  obtain ⟨ms, hobject, hfind⟩ := hf.object_of_plain (k.plain 0)
  have hname : ms.find? "name" = some (.text k.name) := by
    simp [hfind, JsonMembers.find?, hf.text]
  have hkey : ms.find? "key" = some (.text k.key) := by simp [hfind, JsonMembers.find?, hf.text]
  rw [encode, hobject]
  simp [decode, Record.of, bind, Except.bind, pure, Except.pure, Record.required_text 0 hname,
    Record.required_text 1 hkey, Slot.faults, Record.check_of_no_faults]

end KeyOf

namespace ReferenceSource

theorem plain (n : Nat) (s : ReferenceSource) : Json.Plain (n + 2) s.encode := by
  refine .object ?_ ?_
  · cases s.secret <;> cases s.configMap <;> simp [writtenIf]
  · simp only [List.forall_mem_append, JsonMembers.forall_mem_writtenIf]
    exact ⟨fun k _ => k.plain n, fun k _ => k.plain n⟩

theorem decode_reordered (hf : Json.Reorders f) (s : ReferenceSource) :
    decode (f s.encode) = .ok s := by
  obtain ⟨ms, hobject, hfind⟩ := hf.object_of_plain (s.plain 0)
  have hsecret : ms.find? "secretKeyRef" = s.secret.map (f ∘ KeyOf.encode) := by simp [hfind]
  have hconfigMap : ms.find? "configMapKeyRef" = s.configMap.map (f ∘ KeyOf.encode) := by
    simp [hfind]
  have hkey (k? : Option KeyOf) : ∀ k, k? = some k → KeyOf.decode (f k.encode) = .ok k :=
    fun k _ => k.decode_reordered hf
  rw [encode, hobject]
  simp [decode, Record.of, bind, Except.bind, pure, Except.pure,
    Record.nullable_of_find 0 hsecret (hkey _) ⟨_, rfl⟩,
    Record.nullable_of_find 1 hconfigMap (hkey _) ⟨_, rfl⟩, Slot.faults, Record.check_of_no_faults]

end ReferenceSource

namespace Reference

theorem plain (n : Nat) (r : Reference) : Json.Plain (n + 3) r.encode := by
  refine .object ?_ ?_
  · by_cases hvalue : r.value.isEmpty <;> cases r.source <;> simp [hvalue, written, writtenIf]
  · by_cases hvalue : r.value.isEmpty
    · simp only [hvalue, if_true, List.nil_append, JsonMembers.forall_mem_writtenIf]
      exact fun s _ => s.plain n
    · simp only [hvalue, Bool.false_eq_true, if_false, List.forall_mem_append,
        JsonMembers.forall_mem_writtenIf, JsonMembers.forall_mem_written]
      exact ⟨.text _ _, fun s _ => s.plain n⟩

theorem decode_reordered (hf : Json.Reorders f) (r : Reference) : decode (f r.encode) = .ok r := by
  obtain ⟨ms, hobject, hfind⟩ := hf.object_of_plain (r.plain 0)
  have hsource : ms.find? "valueFrom" = r.source.map (f ∘ ReferenceSource.encode) := by
    by_cases hempty : r.value = "" <;> simp [hfind, hempty]
  have hslot := Record.nullable_of_find 1 hsource (fun s _ => s.decode_reordered hf) ⟨_, rfl⟩
  rw [encode, hobject]
  by_cases hempty : r.value = ""
  · have hvalue : ms.find? "value" = none := by simp [hfind, hempty]
    obtain ⟨value, source⟩ := r
    subst hempty
    simp [decode, Record.of, bind, Except.bind, pure, Except.pure, hslot,
      Record.optional_of_absent 0 hvalue, Slot.faults, Record.check_of_no_faults]
  · have hvalue : ms.find? "value" = some (.text r.value) := by simp [hfind, hempty, hf.text]
    simp [decode, Record.of, bind, Except.bind, pure, Except.pure, hslot,
      Record.optional_text 0 hvalue, Slot.faults, Record.check_of_no_faults]

end Reference

theorem Record.nullable_reference (hf : Json.Reorders f) (place : Nat) {ms : JsonMembers}
    {name : String} {r? : Option Reference} (h : ms.find? name = r?.map (f ∘ Reference.encode)) :
    (byName ms).optional place name (Json.nullable Reference.decode) =
      ⟨name, r?.map some, none, none⟩ :=
  nullable_of_find place h (fun r _ => r.decode_reordered hf) ⟨_, rfl⟩

/-! ## Databases -/

namespace DatabaseExtension

theorem plain (n : Nat) (e : DatabaseExtension) : Json.Plain (n + 1) e.encode := by
  refine .object (by simp) ?_
  simp [Json.Plain.text]

theorem decode_reordered (hf : Json.Reorders f) (e : DatabaseExtension) :
    decode (f e.encode) = .ok e := by
  obtain ⟨ms, hobject, hfind⟩ := hf.object_of_plain (e.plain 0)
  have hname : ms.find? "name" = some (.text e.name) := by
    simp [hfind, JsonMembers.find?, hf.text]
  rw [encode, hobject]
  simp [decode, Record.of, bind, Except.bind, pure, Except.pure, Record.required_text 0 hname,
    Slot.faults, Record.check_of_no_faults]

end DatabaseExtension

namespace DatabaseSpec

theorem plain (n : Nat) (d : DatabaseSpec) : Json.Plain (n + 4) d.encode := by
  refine .object ?_ ?_
  · cases d.user <;> cases d.password <;> cases d.host <;> cases d.hostCredentials <;>
      simp [written, writtenIf]
  · simp only [List.forall_mem_append, JsonMembers.forall_mem_writtenIf,
      JsonMembers.forall_mem_written]
    refine ⟨⟨⟨⟨⟨⟨.text _ _, fun r _ => r.plain n⟩, fun r _ => r.plain n⟩, .bool _ _⟩,
      fun r _ => r.plain n⟩, fun s _ => .text _ s⟩, .list ?_⟩
    rw [List.forall_mem_map]
    exact fun e _ => e.plain (n + 1)

theorem decode_reordered (hf : Json.Reorders f) (d : DatabaseSpec) :
    decode (f d.encode) = .ok d := by
  obtain ⟨ms, hobject, hfind⟩ := hf.object_of_plain (d.plain 0)
  have hname : ms.find? "name" = some (.text d.name) := by simp [hfind, hf.text]
  have huser : ms.find? "user" = d.user.map (f ∘ Reference.encode) := by simp [hfind]
  have hpassword : ms.find? "password" = d.password.map (f ∘ Reference.encode) := by simp [hfind]
  have hshared : ms.find? "isShared" = some (.bool d.isShared) := by simp [hfind, hf.bool]
  have hhost : ms.find? "host" = d.host.map (f ∘ Reference.encode) := by simp [hfind]
  have hcredentials : ms.find? "hostCredentials" = d.hostCredentials.map Json.text := by
    simp [hfind, Function.comp_def, hf.text]
  have hextensions : ms.find? "extensions" =
      some (f (.list (d.extensions.map DatabaseExtension.encode))) := by simp [hfind]
  have hlist := Json.toList_reordered hf fun e (_ : e ∈ d.extensions) => e.decode_reordered hf
  rw [encode, hobject]
  simp [decode, Record.of, bind, Except.bind, pure, Except.pure, Record.required_text 0 hname,
    Record.nullable_reference hf 1 huser, Record.nullable_reference hf 2 hpassword,
    Record.optional_bool 3 hshared, Record.nullable_reference hf 4 hhost,
    Record.nullable_text 5 hcredentials,
    Record.optional_of_find 6 hextensions hlist, Slot.faults, Record.check_of_no_faults]

end DatabaseSpec

namespace Instant

/-- An instant of a year that has dates is decoded from its encoding. -/
theorem decode_reordered (hf : Json.Reorders f) {t : Instant} (h : hasDates t.year = true) :
    decode (f t.encode) = .ok t := by
  rw [encode, hf.text, decode, Json.toParsed, parse_render t h]
  rfl

end Instant

theorem Record.nullable_instant (hf : Json.Reorders f) (place : Nat) {ms : JsonMembers}
    {name : String} {t? : Option Instant} (h : ms.find? name = t?.map (f ∘ Instant.encode))
    (hdates : ∀ t, t? = some t → Instant.hasDates t.year = true) :
    (byName ms).optional place name (Json.nullable Instant.decode) =
      ⟨name, t?.map some, none, none⟩ :=
  nullable_of_find place h (fun t ht => t.decode_reordered hf (hdates t ht)) ⟨_, rfl⟩

namespace DatabaseStatus

/-- The instants of a status. -/
def instants (s : DatabaseStatus) : List Instant := s.phaseUpdated.toList

theorem plain (n : Nat) (s : DatabaseStatus) : Json.Plain (n + 1) s.encode := by
  refine .object ?_ ?_
  · cases s.phase <;> cases s.phaseUpdated <;> simp [written, writtenIf]
  · simp only [List.forall_mem_append, JsonMembers.forall_mem_writtenIf,
      JsonMembers.forall_mem_written]
    exact ⟨⟨⟨⟨fun p _ => .text n p.word, fun t _ => .text n t.render⟩, .text _ _⟩, .text _ _⟩,
      .text _ _⟩

/-- A status is decoded from every object that has its members, whatever else it has. -/
theorem decode_members (hf : Json.Reorders f) {s : DatabaseStatus}
    (h : ∀ t ∈ s.instants, Instant.hasDates t.year = true) {ms : JsonMembers}
    (hfind : ∀ name ∈ ["phase", "phaseUpdated", "host", "user", "error"],
      ms.find? name = (s.encode.members.find? name).map f) : decode (.object ms) = .ok s := by
  have hphase : ms.find? "phase" = s.phase.map Phase.encode := by
    simp [hfind, encode, Json.members, Function.comp_def, Phase.encode, hf.text]
    rfl
  have hupdated : ms.find? "phaseUpdated" = s.phaseUpdated.map (f ∘ Instant.encode) := by
    simp [hfind, encode, Json.members]
  have hhost : ms.find? "host" = some (.text s.host) := by
    simp [hfind, encode, Json.members, hf.text]
  have huser : ms.find? "user" = some (.text s.user) := by
    simp [hfind, encode, Json.members, hf.text]
  have herror : ms.find? "error" = some (.text s.error) := by
    simp [hfind, encode, Json.members, hf.text]
  have hdates : ∀ t, s.phaseUpdated = some t → Instant.hasDates t.year = true :=
    fun t ht => h t (by simp [instants, ht])
  simp [decode, Record.of, bind, Except.bind, pure, Except.pure,
    Record.nullable_of_find 0 hphase (fun p _ => p.decode_encode) ⟨_, rfl⟩,
    Record.nullable_instant hf 1 hupdated hdates, Record.optional_text 2 hhost,
    Record.optional_text 3 huser, Record.optional_text 4 herror, Slot.faults,
    Record.check_of_no_faults]

theorem decode_reordered (hf : Json.Reorders f) (s : DatabaseStatus)
    (h : ∀ t ∈ s.instants, Instant.hasDates t.year = true) : decode (f s.encode) = .ok s := by
  obtain ⟨ms, hobject, hfind⟩ := hf.object_of_plain (s.plain 0)
  rw [encode, hobject]
  exact decode_members hf h fun name _ => hfind name

end DatabaseStatus

/-! ## Host credentials and service users -/

namespace HostCredentialsSpec

theorem plain (n : Nat) (h : HostCredentialsSpec) : Json.Plain (n + 4) h.encode := by
  refine .object ?_ ?_
  · cases h.params <;> simp [written, writtenIf]
  · simp only [List.forall_mem_append, JsonMembers.forall_mem_writtenIf,
      JsonMembers.forall_mem_written]
    exact ⟨⟨⟨h.host.plain n, h.user.plain n⟩, h.password.plain n⟩, fun r _ => r.plain n⟩

theorem decode_reordered (hf : Json.Reorders f) (h : HostCredentialsSpec) :
    decode (f h.encode) = .ok h := by
  obtain ⟨ms, hobject, hfind⟩ := hf.object_of_plain (h.plain 0)
  have hhost : ms.find? "host" = some (f h.host.encode) := by simp [hfind]
  have huser : ms.find? "user" = some (f h.user.encode) := by simp [hfind]
  have hpassword : ms.find? "password" = some (f h.password.encode) := by simp [hfind]
  have hparams : ms.find? "params" = h.params.map (f ∘ Reference.encode) := by simp [hfind]
  rw [encode, hobject]
  simp [decode, Record.of, bind, Except.bind, pure, Except.pure,
    Record.required_of_find 0 hhost (h.host.decode_reordered hf),
    Record.required_of_find 1 huser (h.user.decode_reordered hf),
    Record.required_of_find 2 hpassword (h.password.decode_reordered hf),
    Record.nullable_reference hf 3 hparams, Slot.faults, Record.check_of_no_faults]

end HostCredentialsSpec

namespace ServiceUserRole

theorem plain (n : Nat) (r : ServiceUserRole) : Json.Plain (n + 1) r.encode := by
  refine .object (by simp) ?_
  simp [Json.Plain.text]

theorem decode_reordered (hf : Json.Reorders f) (r : ServiceUserRole) :
    decode (f r.encode) = .ok r := by
  obtain ⟨ms, hobject, hfind⟩ := hf.object_of_plain (r.plain 0)
  have hname : ms.find? "roleName" = some (.text r.roleName) := by
    simp [hfind, JsonMembers.find?, hf.text]
  rw [encode, hobject]
  simp [decode, Record.of, bind, Except.bind, pure, Except.pure, Record.required_text 0 hname,
    Slot.faults, Record.check_of_no_faults]

end ServiceUserRole

namespace ServiceUserSpec

theorem plain (n : Nat) (u : ServiceUserSpec) : Json.Plain (n + 4) u.encode := by
  refine .object ?_ ?_
  · cases u.password <;> simp [written, writtenIf]
  · simp only [List.forall_mem_append, JsonMembers.forall_mem_writtenIf,
      JsonMembers.forall_mem_written]
    refine ⟨⟨⟨.text _ _, u.host.plain n⟩, fun r _ => r.plain n⟩, .list ?_⟩
    rw [List.forall_mem_map]
    exact fun r _ => r.plain (n + 1)

theorem decode_reordered (hf : Json.Reorders f) (u : ServiceUserSpec) :
    decode (f u.encode) = .ok u := by
  obtain ⟨ms, hobject, hfind⟩ := hf.object_of_plain (u.plain 0)
  have hname : ms.find? "name" = some (.text u.name) := by simp [hfind, hf.text]
  have hhost : ms.find? "host" = some (f u.host.encode) := by simp [hfind]
  have hpassword : ms.find? "password" = u.password.map (f ∘ Reference.encode) := by simp [hfind]
  have hroles : ms.find? "roles" = some (f (.list (u.roles.map ServiceUserRole.encode))) := by
    simp [hfind]
  have hlist := Json.toList_reordered hf fun r (_ : r ∈ u.roles) => r.decode_reordered hf
  rw [encode, hobject]
  simp [decode, Record.of, bind, Except.bind, pure, Except.pure, Record.required_text 0 hname,
    Record.required_of_find 1 hhost (u.host.decode_reordered hf),
    Record.nullable_reference hf 2 hpassword, Record.optional_of_find 3 hroles hlist, Slot.faults,
    Record.check_of_no_faults]

end ServiceUserSpec

/-! ## Users -/

namespace AccessIntent

/-- The instants of an access intent. -/
def instants (a : AccessIntent) : List Instant := a.start.toList ++ a.stop.toList

theorem names_members (a : AccessIntent) :
    (a.members.map Prod.fst).Sublist
      ["host", "allDatabases", "database", "schema", "reason", "start", "stop"] := by
  cases hstart : a.start <;> cases hstop : a.stop <;>
    simp [members, hstart, hstop, written, writtenIf]

theorem plain_members (n : Nat) (a : AccessIntent) : ∀ m ∈ a.members, Json.Plain (n + 3) m.2 := by
  simp only [members, List.forall_mem_append, JsonMembers.forall_mem_writtenIf,
    JsonMembers.forall_mem_written]
  exact ⟨⟨⟨⟨⟨⟨a.host.plain n, .bool _ _⟩, a.database.plain n⟩, a.schema.plain n⟩, .text _ _⟩,
    fun t _ => .text _ t.render⟩, fun t _ => .text _ t.render⟩

theorem plain (n : Nat) (a : AccessIntent) : Json.Plain (n + 4) a.encode :=
  .object (a.names_members.nodup (by simp)) (a.plain_members n)

/-- An access intent is decoded from every object that has its members, whatever else it has. -/
theorem ofRecord_reordered (hf : Json.Reorders f) {a : AccessIntent}
    (h : ∀ t ∈ a.instants, Instant.hasDates t.year = true) {ms : JsonMembers}
    (hfind : ∀ name, name ≠ "extended" → ms.find? name = (a.members.find? name).map f) :
    ofRecord (.byName ms) = .ok a := by
  have hhost : ms.find? "host" = some (f a.host.encode) := by simp [hfind, members]
  have hall : ms.find? "allDatabases" = some (.bool a.allDatabases) := by
    simp [hfind, members, hf.bool]
  have hdatabase : ms.find? "database" = some (f a.database.encode) := by simp [hfind, members]
  have hschema : ms.find? "schema" = some (f a.schema.encode) := by simp [hfind, members]
  have hreason : ms.find? "reason" = some (.text a.reason) := by simp [hfind, members, hf.text]
  have hstart : ms.find? "start" = a.start.map (f ∘ Instant.encode) := by simp [hfind, members]
  have hstop : ms.find? "stop" = a.stop.map (f ∘ Instant.encode) := by simp [hfind, members]
  have hstarts : ∀ t, a.start = some t → Instant.hasDates t.year = true :=
    fun t ht => h t (by simp [instants, ht])
  have hstops : ∀ t, a.stop = some t → Instant.hasDates t.year = true :=
    fun t ht => h t (by simp [instants, ht])
  simp [ofRecord, bind, Except.bind, pure, Except.pure,
    Record.required_of_find 0 hhost (a.host.decode_reordered hf), Record.optional_bool 1 hall,
    Record.optional_of_find 2 hdatabase (a.database.decode_reordered hf),
    Record.optional_of_find 3 hschema (a.schema.decode_reordered hf),
    Record.optional_text 4 hreason, Record.nullable_instant hf 5 hstart hstarts,
    Record.nullable_instant hf 6 hstop hstops, Slot.faults, Record.check_of_no_faults]

theorem decode_reordered (hf : Json.Reorders f) (a : AccessIntent)
    (h : ∀ t ∈ a.instants, Instant.hasDates t.year = true) : decode (f a.encode) = .ok a := by
  obtain ⟨ms, hobject, hfind⟩ := hf.object_of_plain (a.plain 0)
  rw [encode, hobject]
  exact ofRecord_reordered hf h fun name _ => hfind name

end AccessIntent

namespace WriteIntent

theorem plain (n : Nat) (w : WriteIntent) : Json.Plain (n + 4) w.encode := by
  refine .object ?_ ?_
  · have hnames := w.access.names_members.append (List.Sublist.refl ["extended"])
    rw [List.map_append]
    exact hnames.nodup (by simp)
  · rw [List.forall_mem_append, JsonMembers.forall_mem_written]
    exact ⟨w.access.plain_members n, .bool _ _⟩

theorem decode_reordered (hf : Json.Reorders f) (w : WriteIntent)
    (h : ∀ t ∈ w.access.instants, Instant.hasDates t.year = true) :
    decode (f w.encode) = .ok w := by
  obtain ⟨ms, hobject, hfind⟩ := hf.object_of_plain (w.plain 0)
  have hfresh : w.access.members.find? "extended" = none :=
    JsonMembers.find?_eq_none_of_fresh fun hmem => by
      have := w.access.names_members.subset hmem
      simp at this
  have hextended : ms.find? "extended" = some (.bool w.extended) := by
    simp [hfind, hfresh, hf.bool]
  have haccess : AccessIntent.ofRecord (.byName ms) = .ok w.access :=
    AccessIntent.ofRecord_reordered hf h fun name hname => by simp [hfind, Ne.symm hname]
  rw [encode, hobject]
  simp [decode, bind, Except.bind, pure, Except.pure, Record.optional_bool 0 hextended, haccess,
    Slot.faults, Record.check_of_no_faults, Except.mapError]

end WriteIntent

namespace UserSpec

/-- The instants of a user. -/
def instants (u : UserSpec) : List Instant :=
  u.read.flatMap AccessIntent.instants ++ u.write.flatMap fun w => w.access.instants

theorem plain (n : Nat) (u : UserSpec) : Json.Plain (n + 6) u.encode := by
  refine .object ?_ ?_
  · by_cases hread : u.read.isEmpty <;> by_cases hwrite : u.write.isEmpty <;>
      simp [hread, hwrite, written]
  · have hread : Json.Plain (n + 5) (.list (u.read.map AccessIntent.encode)) := by
      refine .list ?_
      rw [List.forall_mem_map]
      exact fun a _ => a.plain n
    have hwrite : Json.Plain (n + 5) (.list (u.write.map WriteIntent.encode)) := by
      refine .list ?_
      rw [List.forall_mem_map]
      exact fun w _ => w.plain n
    simp only [List.forall_mem_append, JsonMembers.forall_mem_written]
    refine ⟨⟨.text _ _, ?_⟩, ?_⟩
    · split
      next => exact fun m hm => absurd hm List.not_mem_nil
      next => rwa [JsonMembers.forall_mem_written]
    · split
      next => exact fun m hm => absurd hm List.not_mem_nil
      next => rwa [JsonMembers.forall_mem_written]

theorem decode_reordered (hf : Json.Reorders f) (u : UserSpec)
    (h : ∀ t ∈ u.instants, Instant.hasDates t.year = true) : decode (f u.encode) = .ok u := by
  obtain ⟨ms, hobject, hfind⟩ := hf.object_of_plain (u.plain 0)
  have hname : ms.find? "name" = some (.text u.name) := by simp [hfind, hf.text]
  have hread : ms.find? "read" =
      if u.read.isEmpty then none else some (f (.list (u.read.map AccessIntent.encode))) := by
    rw [hfind]
    by_cases hr : u.read.isEmpty <;> by_cases hw : u.write.isEmpty <;> simp [hr, hw]
  have hwrite : ms.find? "write" =
      if u.write.isEmpty then none else some (f (.list (u.write.map WriteIntent.encode))) := by
    rw [hfind]
    by_cases hr : u.read.isEmpty <;> by_cases hw : u.write.isEmpty <;> simp [hr, hw]
  have hreads : ∀ a ∈ u.read, AccessIntent.decode (f a.encode) = .ok a := fun a ha =>
    a.decode_reordered hf fun t ht =>
      h t (List.mem_append_left _ (List.mem_flatMap_of_mem ha ht))
  have hwrites : ∀ w ∈ u.write, WriteIntent.decode (f w.encode) = .ok w := fun w hw =>
    w.decode_reordered hf fun t ht =>
      h t (List.mem_append_right _ (List.mem_flatMap_of_mem hw ht))
  rw [encode, hobject]
  simp only [decode, Record.of, bind, Except.bind, pure, Except.pure,
    Record.required_text 0 hname, Record.list_of_find hf 1 hread hreads,
    Record.list_of_find hf 2 hwrite hwrites, Slot.get_some, Slot.getD_list]
  simp [Slot.faults, Record.check_of_no_faults]

end UserSpec

end Resources

/-! ## Round trips -/

/-- Every value of a resource type is decoded from its encoding and from the text of its encoding,
if all its instants have a year of the calendar, among them those of four digits. -/
theorem resources_round_trip :
    (∀ r : Reference, Json.RoundTrips Reference.decode Reference.encode r) ∧
    (∀ d : DatabaseSpec, Json.RoundTrips DatabaseSpec.decode DatabaseSpec.encode d) ∧
    (∀ s : DatabaseStatus, (∀ t ∈ s.instants, Instant.hasDates t.year = true) →
      Json.RoundTrips DatabaseStatus.decode DatabaseStatus.encode s) ∧
    (∀ h : HostCredentialsSpec,
      Json.RoundTrips HostCredentialsSpec.decode HostCredentialsSpec.encode h) ∧
    (∀ u : ServiceUserSpec, Json.RoundTrips ServiceUserSpec.decode ServiceUserSpec.encode u) ∧
    (∀ a : AccessIntent, (∀ t ∈ a.instants, Instant.hasDates t.year = true) →
      Json.RoundTrips AccessIntent.decode AccessIntent.encode a) ∧
    (∀ w : WriteIntent, (∀ t ∈ w.access.instants, Instant.hasDates t.year = true) →
      Json.RoundTrips WriteIntent.decode WriteIntent.encode w) ∧
    (∀ u : UserSpec, (∀ t ∈ u.instants, Instant.hasDates t.year = true) →
      Json.RoundTrips UserSpec.decode UserSpec.encode u) :=
  ⟨fun r => Json.roundTrips_of_reordered (r.plain 0) (by decide) fun _ hf => r.decode_reordered hf,
    fun d => Json.roundTrips_of_reordered (d.plain 0) (by decide) fun _ hf => d.decode_reordered hf,
    fun s h => Json.roundTrips_of_reordered (s.plain 0) (by decide) fun _ hf =>
      s.decode_reordered hf h,
    fun h => Json.roundTrips_of_reordered (h.plain 0) (by decide) fun _ hf => h.decode_reordered hf,
    fun u => Json.roundTrips_of_reordered (u.plain 0) (by decide) fun _ hf => u.decode_reordered hf,
    fun a h => Json.roundTrips_of_reordered (a.plain 0) (by decide) fun _ hf =>
      a.decode_reordered hf h,
    fun w h => Json.roundTrips_of_reordered (w.plain 0) (by decide) fun _ hf =>
      w.decode_reordered hf h,
    fun u h => Json.roundTrips_of_reordered (u.plain 0) (by decide) fun _ hf =>
      u.decode_reordered hf h⟩

/-- A write intent from a leap day of the year zero to the last leap second of four digits. -/
def assortedIntent : WriteIntent where
  access := {
    host := { value := "\"h\"" }
    database := { source := some { configMap := some ⟨"names", ""⟩ } }
    reason := "é"
    start := some ⟨0, 2, 29, 0, 0, 0, 1000, by decide, by decide⟩
    stop := some ⟨9999, 12, 31, 23, 59, 60, 999999999, by decide, by decide⟩ }
  extended := true

theorem assortedIntent_round_trips :
    (∀ t ∈ assortedIntent.access.instants, Instant.hasDates t.year = true) ∧
      Json.RoundTrips WriteIntent.decode WriteIntent.encode assortedIntent := by
  have hdates : ∀ t ∈ assortedIntent.access.instants, Instant.hasDates t.year = true := by decide
  exact ⟨hdates, resources_round_trip.2.2.2.2.2.2.1 assortedIntent hdates⟩

end PgSteward
