import Mathlib.Data.List.Forall2
import PgSteward.Program

/-!
# Runs of programs

How a program is run that is put together from others.  A composed program answers when all its
parts do, and fails with the first failure of a part; `bind_eq_ok_iff` and `bind_eq_error_iff` take
a run apart.

`Related R p q` says that runs of `p` and `q` from surroundings that go together by `R` end in the
same way and leave surroundings that go together, and `Keeps view p` that no run of `p`, whether it
fails or not, changes what `view` shows of the surroundings.  Both go through all ways to combine
programs.

`Meets` says what a run comes to, whether it answers or fails, and `Repeated p` leads from where
`p` is run first to what its first success leaves.
-/

namespace PgSteward.Program

variable {σ τ ε ε' α β : Type}

/-! ## Sequencing -/

theorem run_pure (a : α) (s : σ) : (pure a : Program σ ε α) s = .ok a s := rfl

theorem run_get (s : σ) : (get : Program σ ε σ) s = .ok s s := rfl

theorem run_set (s t : σ) : (set t : Program σ ε PUnit) s = .ok ⟨⟩ t := rfl

theorem run_throw (e : ε) (s : σ) : (throw e : Program σ ε α) s = .error e s := rfl

theorem bind_of_ok {p : Program σ ε α} {f : α → Program σ ε β} {s u : σ} {a : α}
    (h : p s = .ok a u) : (p >>= f) s = f a u := by
  simp only [bind, EStateM.bind, h]

theorem bind_of_error {p : Program σ ε α} {f : α → Program σ ε β} {s u : σ} {e : ε}
    (h : p s = .error e u) : (p >>= f) s = .error e u := by
  simp only [bind, EStateM.bind, h]

/-- A composed program answers when both parts do. -/
theorem bind_eq_ok_iff {p : Program σ ε α} {f : α → Program σ ε β} {s t : σ} {b : β} :
    (p >>= f) s = .ok b t ↔ ∃ a u, p s = .ok a u ∧ f a u = .ok b t := by
  cases h : p s with
  | ok a u =>
      rw [bind_of_ok h]
      constructor
      · exact fun hf => ⟨a, u, rfl, hf⟩
      · rintro ⟨a', u', hp, hf⟩
        cases hp
        exact hf
  | error e u => simp [bind_of_error h]

/-- A composed program fails when the first part does, or the second after it. -/
theorem bind_eq_error_iff {p : Program σ ε α} {f : α → Program σ ε β} {s t : σ} {e : ε} :
    (p >>= f) s = .error e t ↔ p s = .error e t ∨ ∃ a u, p s = .ok a u ∧ f a u = .error e t := by
  cases h : p s with
  | ok a u =>
      rw [bind_of_ok h]
      constructor
      · exact fun hf => .inr ⟨a, u, rfl, hf⟩
      · rintro (hp | ⟨a', u', hp, hf⟩)
        · cases hp
        · cases hp
          exact hf
  | error e' u => simp [bind_of_error h]

theorem except_bind_eq_ok_iff {x : Except ε α} {f : α → Except ε β} {b : β} :
    (x >>= f) = .ok b ↔ ∃ a, x = .ok a ∧ f a = .ok b := by
  cases x with
  | ok a => simp [bind, Except.bind]
  | error e => simp [bind, Except.bind]

/-! ## Failures -/

theorem attempt_of_ok {p : Program σ ε α} {s u : σ} {a : α} (h : p s = .ok a u) :
    (attempt p : Program σ ε' (Except ε α)) s = .ok (.ok a) u := by
  simp only [attempt, h]

theorem attempt_of_error {p : Program σ ε α} {s u : σ} {e : ε} (h : p s = .error e u) :
    (attempt p : Program σ ε' (Except ε α)) s = .ok (.error e) u := by
  simp only [attempt, h]

/-- An attempt succeeds with what it comes to. -/
theorem attempt_eq_outcome (p : Program σ ε α) (s : σ) :
    (attempt p : Program σ ε' (Except ε α)) s = .ok (p.outcome s).1 (p.outcome s).2 := by
  cases h : p s with
  | ok a u => rw [attempt_of_ok h, outcome, h]
  | error e u => rw [attempt_of_error h, outcome, h]

theorem mapError_eq_ok_iff {f : ε → ε'} {p : Program σ ε α} {s t : σ} {a : α} :
    mapError f p s = .ok a t ↔ p s = .ok a t := by
  cases h : p s <;> simp [mapError, h]

theorem mapError_eq_error_iff {f : ε → ε'} {p : Program σ ε α} {s t : σ} {e' : ε'} :
    mapError f p s = .error e' t ↔ ∃ e, p s = .error e t ∧ e' = f e := by
  cases h : p s with
  | ok a u => simp [mapError, h]
  | error e u =>
      simp only [mapError, h, EStateM.Result.error.injEq]
      constructor
      · rintro ⟨rfl, rfl⟩
        exact ⟨e, ⟨rfl, rfl⟩, rfl⟩
      · rintro ⟨_, ⟨rfl, rfl⟩, rfl⟩
        exact ⟨rfl, rfl⟩

theorem ofExcept_eq_ok_iff {x : Except ε α} {s t : σ} {a : α} :
    (ofExcept x : Program σ ε α) s = .ok a t ↔ x = .ok a ∧ s = t := by
  cases x with
  | ok b => simp [ofExcept, run_pure]
  | error e => simp [ofExcept, run_throw]

theorem ofExcept_eq_error_iff {x : Except ε α} {s t : σ} {e : ε} :
    (ofExcept x : Program σ ε α) s = .error e t ↔ x = .error e ∧ s = t := by
  cases x with
  | ok b => simp [ofExcept, run_pure]
  | error e => simp [ofExcept, run_throw]

theorem failIf_eq_ok_iff {x : Option ε} {s t : σ} :
    failIf x s = .ok () t ↔ x = none ∧ s = t := by
  cases x with
  | none => simp [failIf, run_pure]
  | some e => simp [failIf, run_throw]

/-- Whether a program succeeds. -/
def succeeds (p : Program σ ε α) (s : σ) : Bool :=
  match p s with
  | .ok _ _ => true
  | .error _ _ => false

/-- A program that succeeds answers and leaves surroundings. -/
theorem exists_ok_of_succeeds {p : Program σ ε α} {s : σ} (h : p.succeeds s = true) :
    ∃ a, p s = .ok a (p.outcome s).2 := by
  unfold succeeds at h
  cases hp : p s with
  | ok a t => exact ⟨a, by simp only [outcome, hp]⟩
  | error e t =>
      rw [hp] at h
      cases h

theorem ok_of_succeeds {p : Program σ ε Unit} {s : σ} (h : p.succeeds s = true) :
    p s = .ok () (p.outcome s).2 := by
  obtain ⟨_, hok⟩ := exists_ok_of_succeeds h
  exact hok

/-- A program that does not succeed leaves surroundings, too. -/
theorem error_of_not_succeeds {p : Program σ ε α} {s : σ} (h : p.succeeds s = false) :
    ∃ e, p s = .error e (p.outcome s).2 := by
  unfold succeeds at h
  cases hp : p s with
  | ok a t =>
      rw [hp] at h
      cases h
  | error e t => exact ⟨e, by simp only [outcome, hp]⟩

/-! ## Lists of programs -/

/-- Programs that are gathered may be gathered in two parts. -/
theorem gather_append (ps qs : List (Program σ ε Unit)) :
    (gather (ps ++ qs) : Program σ ε' (List ε)) = (do
      let es ← gather ps
      let es' ← gather qs
      return es ++ es') := by
  induction ps with
  | nil => exact (bind_pure (gather qs)).symm
  | cons p rest ih =>
      funext s
      rw [List.cons_append]
      cases h : p s with
      | ok u t =>
          simp only [gather, h, ih, bind, EStateM.bind]
      | error e t =>
          simp only [gather, h, ih, bind, EStateM.bind]
          obtain ⟨es, u, hrest⟩ : ∃ es u,
              (gather rest : Program σ ε' (List ε)) t = .ok es u := gather_ok rest t
          obtain ⟨es', v, hqs⟩ : ∃ es' v,
              (gather qs : Program σ ε' (List ε)) u = .ok es' v := gather_ok qs u
          simp only [hrest, hqs, run_pure, List.cons_append]

theorem sequence_append (ps qs : List (Program σ ε Unit)) :
    sequence (ps ++ qs) = (do sequence ps; sequence qs) := by
  induction ps with
  | nil => simp [sequence]
  | cons p rest ih => simp [sequence, ih, bind_assoc]

/-- Each program of a sequence that succeeds has succeeded. -/
theorem ok_of_mem_sequence {ps : List (Program σ ε Unit)} {p : Program σ ε Unit} {s t : σ}
    (h : sequence ps s = .ok () t) (hp : p ∈ ps) : ∃ u v, p u = .ok () v := by
  induction ps generalizing s with
  | nil => cases hp
  | cons q rest ih =>
      obtain ⟨_, s₁, hq, hrest⟩ := bind_eq_ok_iff.mp h
      rcases List.mem_cons.mp hp with rfl | hp
      · exact ⟨s, s₁, hq⟩
      · exact ih hrest hp

/-- A sequence of programs that do nothing does nothing. -/
theorem sequence_eq_pure {ps : List (Program σ ε Unit)} (h : ∀ p ∈ ps, p = pure ()) :
    sequence ps = pure () := by
  induction ps with
  | nil => rfl
  | cons p rest ih =>
      rw [sequence, h p (List.mem_cons_self ..), pure_bind]
      exact ih fun q hq => h q (List.mem_cons_of_mem _ hq)

/-! ## What runs come to -/

/-- A run ends as it should, with an answer or with a failure. -/
def Meets (p : Program σ ε α) (s : σ) (ok : α → σ → Prop) (error : ε → σ → Prop) : Prop :=
  match p s with
  | .ok a t => ok a t
  | .error e t => error e t

section Meets

variable {p : Program σ ε α} {s t : σ} {ok ok' : α → σ → Prop} {error error' : ε → σ → Prop}

theorem meets_of_ok {a : α} (h : p s = .ok a t) (hok : ok a t) : p.Meets s ok error := by
  rw [Meets, h]
  exact hok

theorem meets_of_error {e : ε} (h : p s = .error e t) (herror : error e t) :
    p.Meets s ok error := by
  rw [Meets, h]
  exact herror

theorem Meets.of_ok (h : p.Meets s ok error) {a : α} (hp : p s = .ok a t) : ok a t := by
  rwa [Meets, hp] at h

theorem Meets.of_error (h : p.Meets s ok error) {e : ε} (hp : p s = .error e t) : error e t := by
  rwa [Meets, hp] at h

/-- What runs come to may be said in weaker words. -/
theorem Meets.imp (h : p.Meets s ok error) (hok : ∀ a t, ok a t → ok' a t)
    (herror : ∀ e t, error e t → error' e t) : p.Meets s ok' error' := by
  cases hp : p s with
  | ok a t => exact meets_of_ok hp (hok a t (h.of_ok hp))
  | error e t => exact meets_of_error hp (herror e t (h.of_error hp))

/-- What is said of a run twice holds together. -/
theorem Meets.and (h : p.Meets s ok error) (h' : p.Meets s ok' error') :
    p.Meets s (fun a t => ok a t ∧ ok' a t) fun e t => error e t ∧ error' e t := by
  cases hp : p s with
  | ok a t => exact meets_of_ok hp ⟨h.of_ok hp, h'.of_ok hp⟩
  | error e t => exact meets_of_error hp ⟨h.of_error hp, h'.of_error hp⟩

/-- What holds of all that is left, after an answer and after a failure, holds of the outcome. -/
theorem Meets.outcome {Q : σ → Prop} (h : p.Meets s ok error) (hok : ∀ a t, ok a t → Q t)
    (herror : ∀ e t, error e t → Q t) : Q (p.outcome s).2 := by
  cases hp : p s with
  | ok a t =>
      rw [Program.outcome, hp]
      exact hok a t (h.of_ok hp)
  | error e t =>
      rw [Program.outcome, hp]
      exact herror e t (h.of_error hp)

/-- A composed program goes on from the answer of its first part. -/
theorem Meets.bind {f : α → Program σ ε β} {ok' : β → σ → Prop} (h : p.Meets s ok error)
    (hf : ∀ a t, ok a t → (f a).Meets t ok' error) : (p >>= f).Meets s ok' error := by
  cases hp : p s with
  | ok a t =>
      rw [Meets, bind_of_ok hp]
      exact hf a t (h.of_ok hp)
  | error e t => exact meets_of_error (bind_of_error hp) (h.of_error hp)

theorem meets_attempt {error' : ε' → σ → Prop} (h : p.Meets s ok error) :
    (attempt p : Program σ ε' (Except ε α)).Meets s
      (fun r t => match r with
        | .ok a => ok a t
        | .error e => error e t) error' := by
  cases hp : p s with
  | ok a t => exact meets_of_ok (attempt_of_ok hp) (h.of_ok hp)
  | error e t => exact meets_of_ok (attempt_of_error hp) (h.of_error hp)

theorem meets_onPart (part : σ → τ) (put : τ → σ → σ) {q : Program τ ε α} {ok : α → τ → Prop}
    {error : ε → τ → Prop} (h : q.Meets (part s) ok error) :
    (onPart part put q).Meets s (fun a u => ∃ t, ok a t ∧ u = put t s)
      (fun e u => ∃ t, error e t ∧ u = put t s) := by
  unfold Meets onPart
  cases hq : q (part s) with
  | ok a t => exact ⟨t, h.of_ok hq, rfl⟩
  | error e t => exact ⟨t, h.of_error hq, rfl⟩

end Meets

/-! ## Repeating a program -/

/-- A program that has failed is run again in what it has left, any number of times. -/
inductive Retried (p : Program σ ε Unit) : σ → σ → Prop
  | start (s : σ) : Retried p s s
  | again {s u t : σ} {e : ε} : p s = .error e u → Retried p u t → Retried p s t

/-- A program is run again and again until it succeeds. -/
def Repeated (p : Program σ ε Unit) (s t : σ) : Prop := ∃ u, Retried p s u ∧ p u = .ok () t

/-- What is left when a program has succeeded at last depends on the start only. -/
theorem Repeated.unique {p : Program σ ε Unit} {s t t' : σ} (h : Repeated p s t)
    (h' : Repeated p s t') : t = t' := by
  obtain ⟨u, hretried, hok⟩ := h
  obtain ⟨u', hretried', hok'⟩ := h'
  induction hretried with
  | start s =>
      cases hretried' with
      | start => cases hok.symm.trans hok'; rfl
      | again herror' _ => cases hok.symm.trans herror'
  | again herror _ ih =>
      cases hretried' with
      | start => cases herror.symm.trans hok'
      | again herror' hrest =>
          cases herror.symm.trans herror'
          exact ih hok hrest

/-- A program succeeds at last when each run that fails leaves what the next one needs, with fewer
failures to come. -/
theorem exists_repeated {p : Program σ ε Unit} {I Q : σ → Prop} (failures : σ → Nat)
    (h : ∀ s, I s → (∃ t, p s = .ok () t ∧ Q t) ∨
      ∃ e u, p s = .error e u ∧ I u ∧ failures u < failures s) {s : σ} (hs : I s) :
    ∃ t, Repeated p s t ∧ Q t := by
  induction hn : failures s using Nat.strongRecOn generalizing s with
  | ind n ih =>
      rcases h s hs with ⟨t, hok, hQ⟩ | ⟨e, u, herror, hu, hfewer⟩
      · exact ⟨t, ⟨s, .start s, hok⟩, hQ⟩
      · obtain ⟨t, ⟨v, hretried, hok⟩, hQ⟩ := ih _ (hn ▸ hfewer) hu rfl
        exact ⟨t, ⟨v, .again herror hretried, hok⟩, hQ⟩

/-- Runs a program up to a number of times, until it succeeds. -/
def retry (p : Program σ ε Unit) : Nat → σ → Option σ
  | 0, _ => none
  | tries + 1, s =>
      match p s with
      | .ok () t => some t
      | .error _ t => retry p tries t

theorem repeated_of_retry {p : Program σ ε Unit} {tries : Nat} {s t : σ}
    (h : retry p tries s = some t) : Repeated p s t := by
  induction tries generalizing s with
  | zero => cases h
  | succ tries ih =>
      rw [retry] at h
      split at h
      next u hok =>
        cases h
        exact ⟨s, .start s, hok⟩
      next e u herror =>
        obtain ⟨v, hretried, hok⟩ := ih h
        exact ⟨v, .again herror hretried, hok⟩

/-! ## Runs that go together -/

/-- Runs of two programs end in the same way, and leave surroundings that go together. -/
def Agree (R : σ → τ → Prop) (p : Program σ ε α) (q : Program τ ε α) (s : σ) (t : τ) : Prop :=
  (p.outcome s).1 = (q.outcome t).1 ∧ R (p.outcome s).2 (q.outcome t).2

/-- The runs of two programs agree from all surroundings that go together. -/
def Related (R : σ → τ → Prop) (p : Program σ ε α) (q : Program τ ε α) : Prop :=
  ∀ s t, R s t → Agree R p q s t

section Related

variable {R R' : σ → τ → Prop} {p : Program σ ε α} {q : Program τ ε α} {s : σ} {t : τ}

theorem Agree.cases (h : Agree R p q s t) :
    (∃ a s' t', p s = .ok a s' ∧ q t = .ok a t' ∧ R s' t') ∨
      ∃ e s' t', p s = .error e s' ∧ q t = .error e t' ∧ R s' t' := by
  obtain ⟨hsame, hafter⟩ := h
  cases hp : p s with
  | ok a s' =>
      cases hq : q t with
      | ok b t' =>
          simp only [outcome, hp, hq, Except.ok.injEq] at hsame hafter
          exact .inl ⟨a, s', t', rfl, by rw [hsame], hafter⟩
      | error e t' => simp [outcome, hp, hq] at hsame
  | error e s' =>
      cases hq : q t with
      | ok b t' => simp [outcome, hp, hq] at hsame
      | error e' t' =>
          simp only [outcome, hp, hq, Except.error.injEq] at hsame hafter
          exact .inr ⟨e, s', t', rfl, by rw [hsame], hafter⟩

/-- Composed runs agree when their first parts do, and then their second parts wherever the first
ones lead. -/
theorem Agree.bind {f : α → Program σ ε β} {g : α → Program τ ε β} (h : Agree R p q s t)
    (hR : ∀ s t, R s t → R' s t)
    (hfg : ∀ a s' t', p s = .ok a s' → R s' t' → Agree R' (f a) (g a) s' t') :
    Agree R' (p >>= f) (q >>= g) s t := by
  rcases h.cases with ⟨a, s', t', hp, hq, hafter⟩ | ⟨e, s', t', hp, hq, hafter⟩
  · unfold Agree
    rw [outcome, outcome, bind_of_ok hp, bind_of_ok hq]
    exact hfg a s' t' hp hafter
  · unfold Agree
    rw [outcome, outcome, bind_of_error hp, bind_of_error hq]
    exact ⟨rfl, hR s' t' hafter⟩

theorem Agree.mapError {f : ε → ε'} (h : Agree R p q s t) :
    Agree R (mapError f p) (mapError f q) s t := by
  unfold Agree
  rcases h.cases with ⟨a, s', t', hp, hq, hafter⟩ | ⟨e, s', t', hp, hq, hafter⟩
  · simp only [outcome, Program.mapError, hp, hq]
    exact ⟨trivial, hafter⟩
  · simp only [outcome, Program.mapError, hp, hq]
    exact ⟨trivial, hafter⟩

theorem Related.of_ok (h : Related R p q) {s' : σ} {a : α} (hst : R s t) (hp : p s = .ok a s') :
    ∃ t', q t = .ok a t' ∧ R s' t' := by
  rcases (h s t hst).cases with ⟨b, u, t', hp', hq, hafter⟩ | ⟨e, u, t', hp', -, -⟩
  · cases hp.symm.trans hp'
    exact ⟨t', hq, hafter⟩
  · cases hp.symm.trans hp'

/-- Runs that go together do so in either direction. -/
theorem Related.symm (h : Related R p q) : Related (fun t s => R s t) q p := fun t s hst =>
  ⟨(h s t hst).1.symm, (h s t hst).2⟩

theorem related_pure (a : α) : Related R (pure a : Program σ ε α) (pure a) :=
  fun _ _ h => ⟨rfl, h⟩

theorem related_throw (e : ε) : Related R (throw e : Program σ ε α) (throw e) :=
  fun _ _ h => ⟨rfl, h⟩

theorem related_bind {f : α → Program σ ε β} {g : α → Program τ ε β} (h : Related R p q)
    (hfg : ∀ a, Related R (f a) (g a)) : Related R (p >>= f) (q >>= g) :=
  fun s t hst => (h s t hst).bind (fun _ _ hafter => hafter) fun a s' t' _ => hfg a s' t'

theorem related_bind_ofExcept {x : Except ε β} {f : β → Program σ ε α} {g : β → Program τ ε α}
    (h : ∀ b, x = .ok b → Related R (f b) (g b)) :
    Related R (ofExcept x >>= f) (ofExcept x >>= g) := by
  cases x with
  | ok b => exact h b rfl
  | error e => exact related_throw e

theorem related_attempt (h : Related R p q) :
    Related R (attempt p : Program σ ε' (Except ε α)) (attempt q) := by
  intro s t hst
  unfold Agree
  rcases (h s t hst).cases with ⟨a, s', t', hp, hq, hafter⟩ | ⟨e, s', t', hp, hq, hafter⟩
  · rw [outcome, outcome, attempt_of_ok hp, attempt_of_ok hq]
    exact ⟨rfl, hafter⟩
  · rw [outcome, outcome, attempt_of_error hp, attempt_of_error hq]
    exact ⟨rfl, hafter⟩

theorem related_mapError {f : ε → ε'} (h : Related R p q) :
    Related R (mapError f p) (mapError f q) :=
  fun s t hst => (h s t hst).mapError

theorem related_ofExcept (x : Except ε α) :
    Related R (ofExcept x : Program σ ε α) (ofExcept x) := by
  cases x with
  | ok a => exact related_pure a
  | error e => exact related_throw e

theorem related_failIf (x : Option ε) : Related R (failIf x : Program σ ε Unit) (failIf x) := by
  cases x with
  | none => exact related_pure ()
  | some e => exact related_throw e

theorem related_sequence {ps : List (Program σ ε Unit)} {qs : List (Program τ ε Unit)}
    (h : List.Forall₂ (Related R) ps qs) : Related R (sequence ps) (sequence qs) := by
  induction h with
  | nil => exact related_pure ()
  | cons hfirst _ ih => exact related_bind hfirst fun _ => ih

theorem related_gather {ps : List (Program σ ε Unit)} {qs : List (Program τ ε Unit)}
    (h : List.Forall₂ (Related R) ps qs) :
    Related R (gather ps : Program σ ε' (List ε)) (gather qs) := by
  induction h with
  | nil => exact related_pure []
  | @cons p q ps qs hfirst _ ih =>
      intro s t hst
      unfold Agree
      rcases (hfirst s t hst).cases with ⟨u, s', t', hp, hq, hafter⟩ | ⟨e, s', t', hp, hq, hafter⟩
      · simp only [outcome, gather, hp, hq]
        exact ih s' t' hafter
      · obtain ⟨es, s'', hs⟩ : ∃ es s'',
            (gather ps : Program σ ε' (List ε)) s' = .ok es s'' := gather_ok ps s'
        obtain ⟨t'', ht, hend⟩ := ih.of_ok hafter hs
        simp only [outcome, gather, hp, hq, hs, ht]
        exact ⟨trivial, hend⟩

/-- What a program on a part of the surroundings leaves. -/
theorem outcome_onPart (part : σ → τ) (put : τ → σ → σ) (q : Program τ ε α) (s : σ) :
    (onPart part put q).outcome s = ((q.outcome (part s)).1, put (q.outcome (part s)).2 s) := by
  cases h : q (part s) <;> simp [outcome, onPart, h]

end Related

/-! ## What a program keeps -/

/-- No run of a program changes what a view shows. -/
def Keeps (view : σ → τ) (p : Program σ ε α) : Prop := ∀ s, view (p.outcome s).2 = view s

variable {view : σ → τ}

/-- A program that keeps a view goes together with itself from surroundings where the view shows the
same. -/
theorem keeps_iff {p : Program σ ε α} :
    Keeps view p ↔ ∀ v, Related (fun s t => s = t ∧ view s = v) p p := by
  constructor
  · rintro h v s t ⟨rfl, rfl⟩
    exact ⟨rfl, rfl, h s⟩
  · intro h s
    exact (h (view s) s s ⟨rfl, rfl⟩).2.2

theorem Keeps.of_ok {p : Program σ ε α} (h : Keeps view p) {s t : σ} {a : α}
    (hp : p s = .ok a t) : view t = view s := by
  simpa [outcome, hp] using h s

theorem Keeps.of_error {p : Program σ ε α} (h : Keeps view p) {s t : σ} {e : ε}
    (hp : p s = .error e t) : view t = view s := by
  simpa [outcome, hp] using h s

theorem keeps_pure (a : α) : Keeps view (pure a : Program σ ε α) := fun _ => rfl

theorem keeps_throw (e : ε) : Keeps view (throw e : Program σ ε α) := fun _ => rfl

theorem keeps_bind {p : Program σ ε α} {f : α → Program σ ε β} (hp : Keeps view p)
    (hf : ∀ a, Keeps view (f a)) : Keeps view (p >>= f) :=
  keeps_iff.mpr fun v => related_bind (keeps_iff.mp hp v) fun a => keeps_iff.mp (hf a) v

theorem keeps_bind_ofExcept {x : Except ε β} {f : β → Program σ ε α}
    (h : ∀ b, x = .ok b → Keeps view (f b)) : Keeps view (ofExcept x >>= f) := by
  cases x with
  | ok b => exact h b rfl
  | error e => exact keeps_throw e

theorem keeps_attempt {p : Program σ ε α} (hp : Keeps view p) :
    Keeps view (attempt p : Program σ ε' (Except ε α)) :=
  keeps_iff.mpr fun v => related_attempt (keeps_iff.mp hp v)

theorem keeps_ofExcept (x : Except ε α) : Keeps view (ofExcept x : Program σ ε α) :=
  keeps_iff.mpr fun _ => related_ofExcept x

theorem keeps_sequence {ps : List (Program σ ε Unit)} (h : ∀ p ∈ ps, Keeps view p) :
    Keeps view (sequence ps) :=
  keeps_iff.mpr fun v => related_sequence
    (List.forall₂_same.mpr fun p hp => keeps_iff.mp (h p hp) v)

theorem keeps_gather {ps : List (Program σ ε Unit)} (h : ∀ p ∈ ps, Keeps view p) :
    Keeps view (gather ps : Program σ ε' (List ε)) :=
  keeps_iff.mpr fun v => related_gather
    (List.forall₂_same.mpr fun p hp => keeps_iff.mp (h p hp) v)

theorem keeps_mapError {p : Program σ ε α} {f : ε → ε'} (hp : Keeps view p) :
    Keeps view (mapError f p) :=
  keeps_iff.mpr fun v => related_mapError (keeps_iff.mp hp v)

end PgSteward.Program
