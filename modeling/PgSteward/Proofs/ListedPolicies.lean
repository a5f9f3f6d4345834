import PgSteward.Policy.Aws
import PgSteward.Proofs.ProgramRuns

/-!
# Listed policies

The policy service lists a policy with its resource name and its default version, and another call
reads the document of the version.  Either of these may be missing, the call may fail, and what it
answers may be no document.

`AwsEndpoint.Answers` says which calls are made, one after the other, and which results they have.
A listed policy with all its parts is a `PolicyEntry`, and `AwsEndpoint.Refuses` says why a policy
cannot be read.  The policies of a page are read when all of them are entries
(`managedAll_eq_ok_iff`), and the first that is none decides otherwise (`managedAll_eq_error_iff`).
-/

namespace PgSteward

open Program AwsEndpoint

/-! ## Calls and their results -/

/-- A call with its result. -/
structure Exchange where
  call : AwsCall
  result : Json

namespace AwsEndpoint

variable {σ α : Type} (e : AwsEndpoint σ) {w t : σ}

/-- Calls are made one after the other, and each has its result. -/
inductive Answers : List Exchange → σ → σ → Prop where
  | nil (w : σ) : Answers [] w w
  | cons {x : Exchange} {rest : List Exchange} {w u t : σ} :
      e.call x.call w = .ok x.result u → Answers rest u t → Answers (x :: rest) w t

/-- Every result is one less of those that are still to come. -/
def CountsDown : Prop := ∀ c w result t, e.call c w = .ok result t → e.pending t < e.pending w

variable {e}

theorem answers_nil_iff : e.Answers [] w t ↔ w = t := by
  constructor
  · rintro ⟨⟩
    rfl
  · rintro rfl
    exact .nil w

theorem answers_cons_iff {x : Exchange} {rest : List Exchange} :
    e.Answers (x :: rest) w t ↔ ∃ u, e.call x.call w = .ok x.result u ∧ e.Answers rest u t := by
  constructor
  · rintro (_ | ⟨hfirst, hrest⟩)
    exact ⟨_, hfirst, hrest⟩
  · rintro ⟨_, hfirst, hrest⟩
    exact .cons hfirst hrest

theorem answers_append_iff {front back : List Exchange} :
    e.Answers (front ++ back) w t ↔ ∃ u, e.Answers front w u ∧ e.Answers back u t := by
  induction front generalizing w with
  | nil => simp [answers_nil_iff]
  | cons x rest ih =>
      simp only [List.cons_append, answers_cons_iff, ih]
      constructor
      · rintro ⟨v, hfirst, u, hrest, hback⟩
        exact ⟨u, ⟨v, hfirst, hrest⟩, hback⟩
      · rintro ⟨u, ⟨v, hfirst, hrest⟩, hback⟩
        exact ⟨v, hfirst, u, hrest, hback⟩

/-- A result and those after it leave fewer to come. -/
theorem CountsDown.pending_lt (he : e.CountsDown) {c : AwsCall} {result : Json} {u : σ}
    {rest : List Exchange} (hcall : e.call c w = .ok result u) (hrest : e.Answers rest u t)
    {n : Nat} (hn : e.pending w < n + 1) : e.pending t < n := by
  induction hrest generalizing w c result with
  | nil => exact Nat.lt_of_lt_of_le (he c w result _ hcall) (Nat.lt_succ_iff.mp hn)
  | cons hfirst _ ih => exact ih hfirst (Nat.lt_trans (he c w result _ hcall) hn)

/-! ## Listed policies -/

theorem need_eq_ok_iff {policy part : String} {x : Option α} {a : α} :
    (need policy part x : Program σ IamError α) w = .ok a t ↔ x = some a ∧ w = t := by
  cases x with
  | none => simp [need, run_throw]
  | some b => simp [need, run_pure]

theorem need_eq_error_iff {policy part : String} {x : Option α} {err : IamError} :
    (need policy part x : Program σ IamError α) w = .error err t ↔
      x = none ∧ err = .incomplete policy part ∧ w = t := by
  cases x with
  | none => simp [need, run_throw, eq_comm]
  | some b => simp [need, run_pure]

/-- The name of a listed policy. -/
def listedName (listed : Json) : String := (textAt? "PolicyName" listed).getD ""

/-- The text of the document in the response for a version. -/
def documentText? (version : Json) : Option String :=
  (version.member? "PolicyVersion").bind (textAt? "Document")

end AwsEndpoint

/-- A listed policy and the response for its default version, with all their parts. -/
structure PolicyEntry where
  listed : Json
  arn : String
  versionId : String
  /-- The response for the default version. -/
  version : Json
  /-- The encoded text of the document. -/
  text : String
  document : PolicyDocument
  arn_eq : textAt? "Arn" listed = some arn
  versionId_eq : textAt? "DefaultVersionId" listed = some versionId
  text_eq : documentText? version = some text
  document_eq : PolicyDocument.ofText (listedName listed) text = .ok document

namespace PolicyEntry

/-- The call for the default version. -/
def exchange (x : PolicyEntry) : Exchange := ⟨.getPolicyVersion x.arn x.versionId, x.version⟩

/-- The policy with the document of its default version. -/
def policy (x : PolicyEntry) : ManagedPolicy :=
  { name := listedName x.listed, arn := x.arn, versionId := x.versionId, document := x.document }

end PolicyEntry

namespace AwsEndpoint

variable {σ α : Type} (e : AwsEndpoint σ) {w t : σ}

/-- Why a listed policy cannot be read.  Without a resource name or a default version nothing is
called, and otherwise the call for the version is the last one. -/
inductive Refuses (listed : Json) : IamError → σ → σ → Prop where
  | noArn {w : σ} : textAt? "Arn" listed = none →
      Refuses listed (.incomplete (listedName listed) "arn") w w
  | noVersion {arn : String} {w : σ} : textAt? "Arn" listed = some arn →
      textAt? "DefaultVersionId" listed = none →
      Refuses listed (.incomplete (listedName listed) "default version") w w
  | noAnswer {arn versionId : String} {err : IamError} {w t : σ} :
      textAt? "Arn" listed = some arn → textAt? "DefaultVersionId" listed = some versionId →
      e.call (.getPolicyVersion arn versionId) w = .error err t → Refuses listed err w t
  | noDocument {arn versionId : String} {version : Json} {w t : σ} :
      textAt? "Arn" listed = some arn → textAt? "DefaultVersionId" listed = some versionId →
      e.call (.getPolicyVersion arn versionId) w = .ok version t → documentText? version = none →
      Refuses listed (.incomplete (listedName listed) "document") w t
  | unreadable {arn versionId text : String} {version : Json} {err : IamError} {w t : σ} :
      textAt? "Arn" listed = some arn → textAt? "DefaultVersionId" listed = some versionId →
      e.call (.getPolicyVersion arn versionId) w = .ok version t →
      documentText? version = some text →
      PolicyDocument.ofText (listedName listed) text = .error err → Refuses listed err w t

variable {e}

/-- A policy is read when it is an entry. -/
theorem managed_eq_ok_iff {listed : Json} {policy : ManagedPolicy} :
    e.managed listed w = .ok policy t ↔
      ∃ x : PolicyEntry, x.listed = listed ∧ x.policy = policy ∧
        e.call x.exchange.call w = .ok x.exchange.result t := by
  simp only [managed, bind_eq_ok_iff, need_eq_ok_iff, ofExcept_eq_ok_iff, run_pure]
  constructor
  · rintro ⟨arn, _, ⟨harn, rfl⟩, versionId, _, ⟨hversionId, rfl⟩, version, _, hcall, text, _,
      ⟨htext, rfl⟩, document, _, ⟨hdocument, rfl⟩, hpolicy⟩
    cases hpolicy
    exact ⟨⟨listed, arn, versionId, version, text, document, harn, hversionId, htext, hdocument⟩,
      rfl, rfl, hcall⟩
  · rintro ⟨x, rfl, rfl, hcall⟩
    exact ⟨x.arn, w, ⟨x.arn_eq, rfl⟩, x.versionId, w, ⟨x.versionId_eq, rfl⟩, x.version, t, hcall,
      x.text, t, ⟨x.text_eq, rfl⟩, x.document, t, ⟨x.document_eq, rfl⟩, rfl⟩

/-- The first part that is missing decides why a policy is not read. -/
theorem managed_eq_error_iff {listed : Json} {err : IamError} :
    e.managed listed w = .error err t ↔ e.Refuses listed err w t := by
  simp only [managed, bind_eq_error_iff, need_eq_ok_iff, need_eq_error_iff, ofExcept_eq_ok_iff,
    ofExcept_eq_error_iff, run_pure]
  constructor
  · rintro (⟨harn, rfl, rfl⟩ | ⟨arn, _, ⟨harn, rfl⟩, hrest⟩)
    · exact .noArn harn
    obtain ⟨hversionId, rfl, rfl⟩ | ⟨versionId, _, ⟨hversionId, rfl⟩, hrest⟩ := hrest
    · exact .noVersion harn hversionId
    obtain hcall | ⟨version, u, hcall, hrest⟩ := hrest
    · exact .noAnswer harn hversionId hcall
    obtain ⟨htext, rfl, rfl⟩ | ⟨text, _, ⟨htext, rfl⟩, hrest⟩ := hrest
    · exact .noDocument harn hversionId hcall htext
    obtain ⟨hdocument, rfl⟩ | ⟨_, _, -, hpure⟩ := hrest
    · exact .unreadable harn hversionId hcall htext hdocument
    · cases hpure
  · intro h
    cases h with
    | noArn harn => exact .inl ⟨harn, rfl, rfl⟩
    | @noVersion arn _ harn hversionId =>
        exact .inr ⟨arn, w, ⟨harn, rfl⟩, .inl ⟨hversionId, rfl, rfl⟩⟩
    | @noAnswer arn versionId _ _ _ harn hversionId hcall =>
        exact .inr ⟨arn, w, ⟨harn, rfl⟩, .inr ⟨versionId, w, ⟨hversionId, rfl⟩, .inl hcall⟩⟩
    | @noDocument arn versionId version _ _ harn hversionId hcall htext =>
        exact .inr ⟨arn, w, ⟨harn, rfl⟩, .inr ⟨versionId, w, ⟨hversionId, rfl⟩,
          .inr ⟨version, t, hcall, .inl ⟨htext, rfl, rfl⟩⟩⟩⟩
    | @unreadable arn versionId text version _ _ _ harn hversionId hcall htext hdocument =>
        exact .inr ⟨arn, w, ⟨harn, rfl⟩, .inr ⟨versionId, w, ⟨hversionId, rfl⟩,
          .inr ⟨version, t, hcall, .inr ⟨text, t, ⟨htext, rfl⟩, .inl ⟨hdocument, rfl⟩⟩⟩⟩⟩

/-- The policies of a page are read when each of them is, one after the other. -/
theorem managedAll_eq_ok_iff {items : List Json} {policies : List ManagedPolicy} :
    e.managedAll items w = .ok policies t ↔
      ∃ entries : List PolicyEntry, entries.map (·.listed) = items ∧
        entries.map (·.policy) = policies ∧ e.Answers (entries.map (·.exchange)) w t := by
  induction items generalizing w t policies with
  | nil =>
      simp only [managedAll, run_pure, EStateM.Result.ok.injEq, List.map_eq_nil_iff]
      constructor
      · rintro ⟨rfl, rfl⟩
        exact ⟨[], rfl, rfl, .nil w⟩
      · rintro ⟨_, rfl, rfl, hanswers⟩
        exact ⟨rfl, answers_nil_iff.mp hanswers⟩
  | cons listed rest ih =>
      simp only [managedAll, bind_eq_ok_iff, managed_eq_ok_iff, ih, run_pure,
        EStateM.Result.ok.injEq]
      constructor
      · rintro ⟨_, u, ⟨x, rfl, rfl, hcall⟩, _, _, ⟨entries, rfl, rfl, hanswers⟩, rfl, rfl⟩
        exact ⟨x :: entries, rfl, rfl, .cons hcall hanswers⟩
      · rintro ⟨entries, hlisted, rfl, hanswers⟩
        obtain ⟨x, entries, rfl, rfl, rfl⟩ := List.map_eq_cons_iff.mp hlisted
        obtain ⟨u, hcall, hanswers⟩ := answers_cons_iff.mp hanswers
        exact ⟨_, u, ⟨x, rfl, rfl, hcall⟩, _, t, ⟨entries, rfl, rfl, hanswers⟩, rfl, rfl⟩

/-- The first policy of a page that cannot be read decides. -/
theorem managedAll_eq_error_iff {items : List Json} {err : IamError} :
    e.managedAll items w = .error err t ↔
      ∃ (entries : List PolicyEntry) (listed : Json) (rest : List Json) (u : σ),
        items = entries.map (·.listed) ++ listed :: rest ∧
        e.Answers (entries.map (·.exchange)) w u ∧ e.Refuses listed err u t := by
  induction items generalizing w with
  | nil => simp [managedAll, run_pure]
  | cons first items ih =>
      simp only [managedAll, bind_eq_error_iff, managed_eq_ok_iff, managed_eq_error_iff, ih,
        run_pure, reduceCtorEq, and_false, exists_false, or_false]
      constructor
      · rintro (hrefuses | ⟨_, u, ⟨x, rfl, rfl, hcall⟩, entries, listed, rest, v, rfl, hanswers,
          hrefuses⟩)
        · exact ⟨[], first, items, w, rfl, .nil w, hrefuses⟩
        · exact ⟨x :: entries, listed, rest, v, rfl, .cons hcall hanswers, hrefuses⟩
      · rintro ⟨_ | ⟨x, entries⟩, listed, rest, u, hitems, hanswers, hrefuses⟩
        · cases hitems
          cases answers_nil_iff.mp hanswers
          exact .inl hrefuses
        · cases hitems
          obtain ⟨v, hcall, hanswers⟩ := answers_cons_iff.mp hanswers
          exact .inr ⟨_, v, ⟨x, rfl, rfl, hcall⟩, entries, listed, rest, u, rfl, hanswers, hrefuses⟩

end AwsEndpoint

end PgSteward
