import PgSteward.Proofs.ListedPolicies
import PgSteward.Proofs.PolicyText
import PgSteward.Rehearsal.World

/-!
# Listings in pages

The policy service sends a listing page by page.  A page may have a marker, which asks for the page
that follows.  A listing of policies makes one further call for each of them, and a listing of roles
makes none.

The calls of a listing are those for its pages, each with the marker of the page before it, and
behind each page those for its items (`Paging.exchanges`).  The listing is whole with the first page
that no other follows (`Paging.Whole`).

Both listings read their pages in one way (`AwsEndpoint.readPages`), which comes to an end since the
service has finitely many results to give (`AwsEndpoint.CountsDown`).
`AwsEndpoint.listings_lose_no_page` says what they answer and why they fail.
-/

namespace PgSteward

open Program AwsEndpoint

/-! ## Pages -/

/-- How a listing goes on: the call for the page of a marker, and the marker that a page has for the
page that follows. -/
structure Paging where
  ask : Option String → AwsCall
  next? : Json → Option String

/-- A page as it is sent, the calls that are made for its items, and the items. -/
structure Page (α : Type) where
  result : Json
  calls : List Exchange
  items : List α

namespace Paging

variable {α : Type} (g : Paging)

/-- The calls for pages and their items.  A page is asked for with the marker of the page before. -/
def exchanges : Option String → List (Page α) → List Exchange
  | _, [] => []
  | marker, page :: rest =>
      ⟨g.ask marker, page.result⟩ :: (page.calls ++ exchanges (g.next? page.result) rest)

/-- The marker for the page that follows some pages. -/
def markerAfter : Option String → List (Page α) → Option String
  | marker, [] => marker
  | _, page :: rest => markerAfter (g.next? page.result) rest

/-- Pages that are each followed by another. -/
def Continued (IsPage : Page α → Prop) (pages : List (Page α)) : Prop :=
  ∀ page ∈ pages, IsPage page ∧ g.next? page.result ≠ none

/-- Pages up to the first one that no other follows. -/
def Whole (IsPage : Page α → Prop) (pages : List (Page α)) : Prop :=
  ∃ front last, pages = front ++ [last] ∧ g.Continued IsPage front ∧ IsPage last ∧
    g.next? last.result = none

variable {g} {IsPage : Page α → Prop}

theorem continued_cons_iff {page : Page α} {rest : List (Page α)} :
    g.Continued IsPage (page :: rest) ↔
      (IsPage page ∧ g.next? page.result ≠ none) ∧ g.Continued IsPage rest :=
  List.forall_mem_cons

theorem whole_cons_iff {page : Page α} {rest : List (Page α)} :
    g.Whole IsPage (page :: rest) ↔
      IsPage page ∧ ((g.next? page.result = none ∧ rest = []) ∨
        (g.next? page.result ≠ none ∧ g.Whole IsPage rest)) := by
  constructor
  · rintro ⟨_ | ⟨first, front⟩, last, hpages, hfront, hlast, hnone⟩
    · cases hpages
      exact ⟨hlast, .inl ⟨hnone, rfl⟩⟩
    · cases hpages
      obtain ⟨⟨hpage, hnext⟩, hfront⟩ := continued_cons_iff.mp hfront
      exact ⟨hpage, .inr ⟨hnext, front, last, rfl, hfront, hlast, hnone⟩⟩
  · rintro ⟨hpage, ⟨hnone, rfl⟩ | ⟨hnext, front, last, rfl, hfront, hlast, hnone⟩⟩
    · exact ⟨[], page, rfl, by simp [Continued], hpage, hnone⟩
    · exact ⟨page :: front, last, rfl, continued_cons_iff.mpr ⟨⟨hpage, hnext⟩, hfront⟩, hlast,
        hnone⟩

theorem not_whole_nil : ¬g.Whole IsPage [] := by
  rintro ⟨front, last, hpages, -⟩
  simp at hpages

end Paging

namespace AwsEndpoint

variable {σ α : Type} (e : AwsEndpoint σ) {w t : σ}

/-- The items of at most `n` pages, from the page of a marker on. -/
def readPages (g : Paging) (read : Json → Program σ IamError (List α)) :
    (n : Nat) → Option String → Program σ IamError (List α)
  | 0, _ => pure []
  | n + 1, marker => do
      let result ← e.call (g.ask marker)
      let here ← read result
      match g.next? result with
      | some next => do
          let others ← readPages g read n (some next)
          return here ++ others
      | none => return here

variable {e} {g : Paging} {read : Json → Program σ IamError (List α)} {IsPage : Page α → Prop}

theorem answers_exchanges_cons_iff {marker : Option String} {page : Page α}
    {rest : List (Page α)} :
    e.Answers (g.exchanges marker (page :: rest)) w t ↔
      ∃ u v, e.call (g.ask marker) w = .ok page.result u ∧ e.Answers page.calls u v ∧
        e.Answers (g.exchanges (g.next? page.result) rest) v t := by
  simp only [Paging.exchanges, answers_cons_iff, answers_append_iff]
  constructor
  · rintro ⟨u, hcall, v, hcalls, hrest⟩
    exact ⟨u, v, hcall, hcalls, hrest⟩
  · rintro ⟨u, v, hcall, hcalls, hrest⟩
    exact ⟨u, hcall, v, hcalls, hrest⟩

section

variable (hread : ∀ {result items w t}, read result w = .ok items t ↔
  ∃ calls, IsPage ⟨result, calls, items⟩ ∧ e.Answers calls w t)

include hread

/-- One page is read, and behind it those that its marker asks for. -/
theorem readPages_succ_eq_ok_iff {n : Nat} {marker : Option String} {items : List α} :
    e.readPages g read (n + 1) marker w = .ok items t ↔
      ∃ (page : Page α) (u v : σ), e.call (g.ask marker) w = .ok page.result u ∧ IsPage page ∧
        e.Answers page.calls u v ∧
        ((g.next? page.result = none ∧ items = page.items ∧ v = t) ∨
          ∃ next others, g.next? page.result = some next ∧ items = page.items ++ others ∧
            e.readPages g read n (some next) v = .ok others t) := by
  simp only [readPages, bind_eq_ok_iff, hread]
  constructor
  · rintro ⟨result, u, hcall, here, v, ⟨calls, hpage, hcalls⟩, hrest⟩
    refine ⟨⟨result, calls, here⟩, u, v, hcall, hpage, hcalls, ?_⟩
    cases hnext : g.next? result with
    | none =>
        rw [hnext] at hrest
        cases hrest
        exact .inl ⟨rfl, rfl, rfl⟩
    | some next =>
        simp only [hnext, bind_eq_ok_iff] at hrest
        obtain ⟨others, _, hothers, hitems⟩ := hrest
        cases hitems
        exact .inr ⟨next, others, rfl, rfl, hothers⟩
  · rintro ⟨page, u, v, hcall, hpage, hcalls, hrest⟩
    refine ⟨page.result, u, hcall, page.items, v, ⟨page.calls, hpage, hcalls⟩, ?_⟩
    obtain ⟨hnext, rfl, rfl⟩ | ⟨next, others, hnext, rfl, hothers⟩ := hrest
    · simp [hnext, run_pure]
    · simp only [hnext, bind_eq_ok_iff]
      exact ⟨others, t, hothers, rfl⟩

/-- A page fails, or it is read and the pages behind it fail. -/
theorem readPages_succ_eq_error_iff {n : Nat} {marker : Option String} {err : IamError} :
    e.readPages g read (n + 1) marker w = .error err t ↔
      (e.call (g.ask marker) w = .error err t ∨
        ∃ result u, e.call (g.ask marker) w = .ok result u ∧ read result u = .error err t) ∨
      ∃ (page : Page α) (u v : σ) (next : String), e.call (g.ask marker) w = .ok page.result u ∧
        IsPage page ∧ e.Answers page.calls u v ∧ g.next? page.result = some next ∧
        e.readPages g read n (some next) v = .error err t := by
  simp only [readPages, bind_eq_error_iff, hread]
  constructor
  · rintro (hcall | ⟨result, u, hcall, hitems | ⟨here, v, ⟨calls, hpage, hcalls⟩, hrest⟩⟩)
    · exact .inl (.inl hcall)
    · exact .inl (.inr ⟨result, u, hcall, hitems⟩)
    cases hnext : g.next? result with
    | none => simp [hnext, run_pure] at hrest
    | some next =>
        simp only [hnext, bind_eq_error_iff, run_pure, reduceCtorEq, and_false, exists_false,
          or_false] at hrest
        exact .inr ⟨⟨result, calls, here⟩, u, v, next, hcall, hpage, hcalls, hnext, hrest⟩
  · rintro ((hcall | ⟨result, u, hcall, hitems⟩) |
      ⟨page, u, v, next, hcall, hpage, hcalls, hnext, hrest⟩)
    · exact .inl hcall
    · exact .inr ⟨result, u, hcall, .inl hitems⟩
    · refine .inr ⟨page.result, u, hcall, .inr ⟨page.items, v, ⟨page.calls, hpage, hcalls⟩, ?_⟩⟩
      simp only [hnext, bind_eq_error_iff]
      exact .inl hrest

/-- Pages are read up to the first one that no other follows. -/
theorem readPages_eq_ok_iff (he : e.CountsDown) {n : Nat} (hn : e.pending w < n)
    {marker : Option String} {items : List α} :
    e.readPages g read n marker w = .ok items t ↔
      ∃ pages, g.Whole IsPage pages ∧ e.Answers (g.exchanges marker pages) w t ∧
        items = pages.flatMap (·.items) := by
  -- Each page takes a result at least, so the bound stays above what is still to come.
  induction n generalizing w t marker items with
  | zero => omega
  | succ n ih =>
      rw [readPages_succ_eq_ok_iff hread]
      constructor
      · rintro ⟨page, u, v, hcall, hpage, hcalls, hrest⟩
        obtain ⟨hnext, rfl, rfl⟩ | ⟨next, others, hnext, rfl, hothers⟩ := hrest
        · exact ⟨[page], Paging.whole_cons_iff.mpr ⟨hpage, .inl ⟨hnext, rfl⟩⟩,
            answers_exchanges_cons_iff.mpr ⟨u, v, hcall, hcalls, .nil v⟩, by simp⟩
        · have hfewer := he.pending_lt hcall hcalls hn
          obtain ⟨pages, hpages, hanswers, rfl⟩ := (ih hfewer).mp hothers
          refine ⟨page :: pages, Paging.whole_cons_iff.mpr ⟨hpage, .inr ⟨by simp [hnext], hpages⟩⟩,
            answers_exchanges_cons_iff.mpr ⟨u, v, hcall, hcalls, ?_⟩, rfl⟩
          rwa [hnext]
      · rintro ⟨_ | ⟨page, pages⟩, hwhole, hanswers, rfl⟩
        · exact absurd hwhole Paging.not_whole_nil
        obtain ⟨u, v, hcall, hcalls, hanswers⟩ := answers_exchanges_cons_iff.mp hanswers
        obtain ⟨hpage, ⟨hnext, rfl⟩ | ⟨hnext, hpages⟩⟩ := Paging.whole_cons_iff.mp hwhole
        · cases answers_nil_iff.mp hanswers
          exact ⟨page, u, t, hcall, hpage, hcalls, .inl ⟨hnext, by simp, rfl⟩⟩
        · obtain ⟨next, hnext⟩ := Option.ne_none_iff_exists'.mp hnext
          have hfewer := he.pending_lt hcall hcalls hn
          rw [hnext] at hanswers
          have hothers := (ih hfewer).mpr ⟨pages, hpages, hanswers, rfl⟩
          exact ⟨page, u, v, hcall, hpage, hcalls, .inr ⟨next, _, hnext, rfl, hothers⟩⟩

/-- A page fails, or one of its items, when all pages before it have been read. -/
theorem readPages_eq_error_iff (he : e.CountsDown) {n : Nat} (hn : e.pending w < n)
    {marker : Option String} {err : IamError} :
    e.readPages g read n marker w = .error err t ↔
      ∃ pages u, g.Continued IsPage pages ∧ e.Answers (g.exchanges marker pages) w u ∧
        (e.call (g.ask (g.markerAfter marker pages)) u = .error err t ∨
          ∃ result v, e.call (g.ask (g.markerAfter marker pages)) u = .ok result v ∧
            read result v = .error err t) := by
  induction n generalizing w t marker with
  | zero => omega
  | succ n ih =>
      rw [readPages_succ_eq_error_iff hread]
      constructor
      · rintro (hfails | ⟨page, u, v, next, hcall, hpage, hcalls, hnext, hrest⟩)
        · exact ⟨[], w, by simp [Paging.Continued], .nil w, hfails⟩
        · have hfewer := he.pending_lt hcall hcalls hn
          obtain ⟨pages, v', hpages, hanswers, hfails⟩ := (ih hfewer).mp hrest
          refine ⟨page :: pages, v',
            Paging.continued_cons_iff.mpr ⟨⟨hpage, by simp [hnext]⟩, hpages⟩,
            answers_exchanges_cons_iff.mpr ⟨u, v, hcall, hcalls, ?_⟩, ?_⟩
          · rwa [hnext]
          · rwa [Paging.markerAfter, hnext]
      · rintro ⟨_ | ⟨page, pages⟩, v', hpages, hanswers, hfails⟩
        · cases answers_nil_iff.mp hanswers
          exact .inl hfails
        · obtain ⟨u, v, hcall, hcalls, hanswers⟩ := answers_exchanges_cons_iff.mp hanswers
          obtain ⟨⟨hpage, hnext⟩, hpages⟩ := Paging.continued_cons_iff.mp hpages
          obtain ⟨next, hnext⟩ := Option.ne_none_iff_exists'.mp hnext
          have hfewer := he.pending_lt hcall hcalls hn
          rw [Paging.markerAfter, hnext] at hfails
          rw [hnext] at hanswers
          have hrest := (ih hfewer).mpr ⟨pages, v', hpages, hanswers, hfails⟩
          exact .inr ⟨page, u, v, next, hcall, hpage, hcalls, hnext, hrest⟩

end

/-! ## The listings of the service -/

/-- Policies under a path are listed up to the first page without a marker. -/
def policyPaging (path : String) : Paging where
  ask := .listPolicies path
  next? := textAt? "Marker"

/-- Roles of a policy are listed up to the first page that is not cut short or has no marker. -/
def rolePaging (arn : String) : Paging where
  ask := .listEntities arn
  next? := fun result => if saysAt "IsTruncated" result then textAt? "Marker" result else none

/-- What a page lists under a name: the items of its list, or nothing if it has no list there. -/
inductive PageLists (name : String) (result : Json) : List Json → Prop where
  | list {items : List Json} : result.member? name = some (.list items) →
      PageLists name result items
  | nothing : (∀ items, result.member? name ≠ some (.list items)) → PageLists name result []

/-- The names of listed roles, in order.  A role without a name is passed over. -/
inductive NamesRoles : List Json → List String → Prop where
  | nil : NamesRoles [] []
  | named {listed : Json} {role : String} {rest : List Json} {roles : List String} :
      listed.member? "RoleName" = some (.text role) → NamesRoles rest roles →
        NamesRoles (listed :: rest) (role :: roles)
  | nameless {listed : Json} {rest : List Json} {roles : List String} :
      (∀ role, listed.member? "RoleName" ≠ some (.text role)) → NamesRoles rest roles →
        NamesRoles (listed :: rest) roles

/-- A page of policies: each that is listed has its default version read, and makes one policy. -/
def IsPolicyPage (page : Page ManagedPolicy) : Prop :=
  ∃ entries : List PolicyEntry, PageLists "Policies" page.result (entries.map (·.listed)) ∧
    page.calls = entries.map (·.exchange) ∧ page.items = entries.map (·.policy)

/-- A page of roles: its items are the names of those that are listed, and no more calls are
made. -/
def IsRolePage (page : Page String) : Prop :=
  page.calls = [] ∧
    ∃ entries, PageLists "PolicyRoles" page.result entries ∧ NamesRoles entries page.items

theorem pageLists_iff {name : String} {result : Json} {items : List Json} :
    PageLists name result items ↔ itemsAt name result = items := by
  constructor
  · rintro (hlist | hnothing)
    · rw [itemsAt, hlist]
    · unfold itemsAt
      split
      next items hlist => exact absurd hlist (hnothing items)
      next => rfl
  · rintro rfl
    unfold itemsAt
    split
    next items hlist => exact .list hlist
    next hnothing => exact .nothing hnothing

theorem textAt?_eq_some_iff {name text : String} {j : Json} :
    textAt? name j = some text ↔ j.member? name = some (.text text) := by
  rw [textAt?, Option.bind_eq_some_iff]
  constructor
  · rintro ⟨value, hmember, htext⟩
    cases value <;> cases htext
    exact hmember
  · exact fun hmember => ⟨_, hmember, rfl⟩

theorem namesRoles_iff {entries : List Json} {roles : List String} :
    NamesRoles entries roles ↔ entries.filterMap (textAt? "RoleName") = roles := by
  constructor
  · intro h
    induction h with
    | nil => rfl
    | named hname _ ih => rw [List.filterMap_cons_some (textAt?_eq_some_iff.mpr hname), ih]
    | nameless hnone _ ih =>
        rw [List.filterMap_cons_none, ih]
        exact Option.eq_none_iff_forall_ne_some.mpr fun role htext =>
          hnone role (textAt?_eq_some_iff.mp htext)
  · rintro rfl
    induction entries with
    | nil => exact .nil
    | cons listed rest ih =>
        cases hname : textAt? "RoleName" listed with
        | some role =>
            rw [List.filterMap_cons_some hname]
            exact .named (textAt?_eq_some_iff.mp hname) ih
        | none =>
            rw [List.filterMap_cons_none hname]
            refine .nameless (fun role hmember => ?_) ih
            cases hname.symm.trans (textAt?_eq_some_iff.mpr hmember)

theorem isRolePage_iff {page : Page String} :
    IsRolePage page ↔ page.calls = [] ∧ page.items = roleNames page.result := by
  simp only [IsRolePage, pageLists_iff, namesRoles_iff, exists_eq_left']
  exact and_congr_right fun _ => eq_comm

theorem listFrom_eq_readPages (path : String) (n : Nat) (marker : Option String) :
    e.listFrom path n marker =
      e.readPages (policyPaging path) (fun result => e.managedAll (itemsAt "Policies" result)) n
        marker := by
  induction n generalizing marker with
  | zero => rfl
  | succ n ih =>
      simp only [listFrom, readPages]
      refine bind_congr fun result => bind_congr fun here => ?_
      simp only [policyPaging]
      cases textAt? "Marker" result with
      | none => rfl
      | some next => simp only [ih, policyPaging]

theorem rolesFrom_eq_readPages (arn : String) (n : Nat) (marker : Option String) :
    e.rolesFrom arn n marker =
      e.readPages (rolePaging arn) (fun result => pure (roleNames result)) n marker := by
  induction n generalizing marker with
  | zero => rfl
  | succ n ih =>
      simp only [rolesFrom, readPages, rolePaging, ih, pure_bind]
      congr 1
      funext result
      cases textAt? "Marker" result <;> cases saysAt "IsTruncated" result <;> rfl

theorem list_eq_readPages (path : String) (w : σ) :
    e.list path w = e.readPages (policyPaging path)
      (fun result => e.managedAll (itemsAt "Policies" result)) (e.pending w + 1) none w := by
  rw [← listFrom_eq_readPages]
  rfl

theorem attachedRoles_eq_readPages (arn : String) (w : σ) :
    e.attachedRoles arn w =
      e.readPages (rolePaging arn) (fun result => pure (roleNames result)) (e.pending w + 1)
        none w := by
  rw [← rolesFrom_eq_readPages]
  rfl

theorem managedAll_eq_ok_iff_isPolicyPage {result : Json} {policies : List ManagedPolicy}
    {w t : σ} : e.managedAll (itemsAt "Policies" result) w = .ok policies t ↔
      ∃ calls, IsPolicyPage ⟨result, calls, policies⟩ ∧ e.Answers calls w t := by
  rw [managedAll_eq_ok_iff]
  constructor
  · rintro ⟨entries, hitems, rfl, hanswers⟩
    exact ⟨_, ⟨entries, pageLists_iff.mpr hitems.symm, rfl, rfl⟩, hanswers⟩
  · rintro ⟨_, ⟨entries, hlists, rfl, rfl⟩, hanswers⟩
    exact ⟨entries, (pageLists_iff.mp hlists).symm, rfl, hanswers⟩

theorem roleNames_eq_ok_iff_isRolePage {result : Json} {roles : List String} {w t : σ} :
    (pure (roleNames result) : Program σ IamError (List String)) w = .ok roles t ↔
      ∃ calls, IsRolePage ⟨result, calls, roles⟩ ∧ e.Answers calls w t := by
  simp only [run_pure, EStateM.Result.ok.injEq, isRolePage_iff]
  constructor
  · rintro ⟨rfl, rfl⟩
    exact ⟨[], ⟨rfl, rfl⟩, .nil w⟩
  · rintro ⟨_, ⟨rfl, hroles⟩, hanswers⟩
    exact ⟨hroles.symm, answers_nil_iff.mp hanswers⟩

variable (e) in
/-- A page of policies fails, or one of its policies cannot be read after those before it. -/
inductive PageBreaks (path : String) (marker : Option String) : IamError → σ → σ → Prop where
  | page {err : IamError} {w t : σ} : e.call (.listPolicies path marker) w = .error err t →
      PageBreaks path marker err w t
  | policy {result listed : Json} {entries : List PolicyEntry} {rest : List Json} {err : IamError}
      {w u t : σ} : PageLists "Policies" result (entries.map (·.listed) ++ listed :: rest) →
      e.Answers (⟨.listPolicies path marker, result⟩ :: entries.map (·.exchange)) w u →
      e.Refuses listed err u t → PageBreaks path marker err w t

theorem pageBreaks_iff {path : String} {marker : Option String} {err : IamError} :
    e.PageBreaks path marker err w t ↔
      e.call (.listPolicies path marker) w = .error err t ∨
        ∃ result u, e.call (.listPolicies path marker) w = .ok result u ∧
          e.managedAll (itemsAt "Policies" result) u = .error err t := by
  simp only [managedAll_eq_error_iff]
  constructor
  · intro h
    cases h with
    | page hcall => exact .inl hcall
    | policy hlists hanswers hrefuses =>
        obtain ⟨u, hcall, hanswers⟩ := answers_cons_iff.mp hanswers
        exact .inr ⟨_, u, hcall, _, _, _, _, pageLists_iff.mp hlists, hanswers, hrefuses⟩
  · rintro (hcall | ⟨_, _, hcall, _, _, _, _, hitems, hanswers, hrefuses⟩)
    · exact .page hcall
    · exact .policy (pageLists_iff.mpr hitems) (.cons hcall hanswers) hrefuses

/-- No page of a listing is lost.  Policies are listed exactly when the pages up to the first one
without a marker are sent and each of their policies can be read; there is one policy for each that
is listed, in order.  A listing fails exactly when, after pages that are each followed by another,
the next page fails or has a policy that cannot be read, and then it fails with the error of this
page or of the first such policy.  Roles are listed in the same way up to the first page that is not
cut short or has no marker. -/
theorem listings_lose_no_page (he : e.CountsDown) (w t : σ) :
    (∀ path policies, e.list path w = .ok policies t ↔
      ∃ pages, (policyPaging path).Whole IsPolicyPage pages ∧
        e.Answers ((policyPaging path).exchanges none pages) w t ∧
        policies = pages.flatMap (·.items)) ∧
    (∀ path err, e.list path w = .error err t ↔
      ∃ pages u, (policyPaging path).Continued IsPolicyPage pages ∧
        e.Answers ((policyPaging path).exchanges none pages) w u ∧
        e.PageBreaks path ((policyPaging path).markerAfter none pages) err u t) ∧
    (∀ arn roles, e.attachedRoles arn w = .ok roles t ↔
      ∃ pages, (rolePaging arn).Whole IsRolePage pages ∧
        e.Answers ((rolePaging arn).exchanges none pages) w t ∧
        roles = pages.flatMap (·.items)) ∧
    ∀ arn err, e.attachedRoles arn w = .error err t ↔
      ∃ pages u, (rolePaging arn).Continued IsRolePage pages ∧
        e.Answers ((rolePaging arn).exchanges none pages) w u ∧
        e.call (.listEntities arn ((rolePaging arn).markerAfter none pages)) u = .error err t := by
  refine ⟨fun path policies => ?_, fun path err => ?_, fun arn roles => ?_, fun arn err => ?_⟩
  · rw [list_eq_readPages]
    exact readPages_eq_ok_iff managedAll_eq_ok_iff_isPolicyPage he (Nat.lt_succ_self _)
  · rw [list_eq_readPages, readPages_eq_error_iff managedAll_eq_ok_iff_isPolicyPage he
      (Nat.lt_succ_self _)]
    simp only [pageBreaks_iff]
    rfl
  · rw [attachedRoles_eq_readPages]
    exact readPages_eq_ok_iff roleNames_eq_ok_iff_isRolePage he (Nat.lt_succ_self _)
  · rw [attachedRoles_eq_readPages, readPages_eq_error_iff roleNames_eq_ok_iff_isRolePage he
      (Nat.lt_succ_self _)]
    simp only [run_pure, reduceCtorEq, and_false, exists_false, or_false]
    rfl

end AwsEndpoint

/-- A script gives each of its answers once. -/
theorem World.awsPolicies_countsDown : World.awsPolicies.CountsDown := by
  intro c w result t hcall
  obtain ⟨answer, u, hsend, hanswer⟩ := bind_eq_ok_iff.mp hcall
  change nextAnswer { w with events := w.events ++ [.aws c] } = .ok answer u at hsend
  cases hscript : w.script with
  | nil =>
      simp only [nextAnswer, hscript] at hsend
      cases hsend
      cases hanswer
  | cons first rest =>
      simp only [nextAnswer, hscript] at hsend
      cases hsend
      cases answer with
      | result value =>
          cases hanswer
          simp [World.awsPolicies, hscript]
      | error code message => cases hanswer

/-- The answer that gives a result. -/
def Exchange.answer (x : Exchange) : AwsAnswer := .result x.result

/-- A script that starts with results gives them one after the other. -/
theorem World.answers_of_script (xs : List Exchange) {rest : List AwsAnswer} {w : World}
    (h : w.script = xs.map (·.answer) ++ rest) :
    ∃ t, World.awsPolicies.Answers xs w t ∧ t.script = rest ∧
      t.events = w.events ++ xs.map fun x => .aws x.call := by
  induction xs generalizing w with
  | nil => exact ⟨w, .nil w, h, by simp⟩
  | cons x xs ih =>
      set u : World := { w with
        script := xs.map (·.answer) ++ rest
        events := w.events ++ [.aws x.call] } with hu
      have hcall : World.awsPolicies.call x.call w = .ok x.result u := by
        refine bind_of_ok (a := x.answer) (u := u) ?_
        change nextAnswer { w with events := w.events ++ [.aws x.call] } = .ok x.answer u
        simp only [nextAnswer, h]
        rfl
      obtain ⟨t, hanswers, hscript, hevents⟩ := ih (w := u) rfl
      rw [hu, List.append_assoc] at hevents
      exact ⟨t, .cons hcall hanswers, hscript, hevents⟩

/-! ## Listings in two pages -/

/-- The encoded text of a document without statements. -/
def bareText : String := "%7B%22Version%22%3A%222012-10-17%22%2C%22Statement%22%3A%5B%5D%7D"

theorem ofText_bareText (policy : String) : PolicyDocument.ofText policy bareText = .ok {} := by
  refine PolicyDocument.ofText_of_writing policy {} bareText ?_
  have htext : Text.toUtf8 bareText.toList =
      Text.percentEncode (fun b => (Char.ofNat b.toNat).isAlphanum || b == 0x2d) true
        (Text.toUtf8 (PolicyDocument.text {}).toList) := by
    decide +kernel
  rw [htext]
  exact Text.percentEncode_writing ..

/-- The entry of a policy of a name, with a document without statements. -/
def bareEntry (name : String) : PolicyEntry where
  listed := .object [("PolicyName", .text name), ("Arn", .text (PolicyMemory.arnOf name)),
    ("DefaultVersionId", .text "v3")]
  arn := PolicyMemory.arnOf name
  versionId := "v3"
  version := .object [("PolicyVersion", .object [("Document", .text bareText)])]
  text := bareText
  document := {}
  arn_eq := rfl
  versionId_eq := rfl
  text_eq := rfl
  document_eq := ofText_bareText _

/-- A page of policies of some names. -/
def barePage (names : List String) (marker : List (String × Json)) : Page ManagedPolicy where
  result := .object (("Policies", .list (names.map fun name => (bareEntry name).listed)) :: marker)
  calls := names.map fun name => (bareEntry name).exchange
  items := names.map fun name => (bareEntry name).policy

theorem barePage_isPolicyPage (names : List String) (marker : List (String × Json)) :
    IsPolicyPage (barePage names marker) := by
  refine ⟨names.map bareEntry, .list ?_, ?_, ?_⟩ <;> rw [List.map_map] <;> rfl

/-- A page of two policies with a marker, and one of a third policy. -/
def shopPolicies : List (Page ManagedPolicy) :=
  [barePage ["a", "b"] [("Marker", .text "m")], barePage ["c"] []]

theorem shopPolicies_whole : (policyPaging "/shop/").Whole IsPolicyPage shopPolicies :=
  ⟨[barePage ["a", "b"] [("Marker", .text "m")]], barePage ["c"] [], rfl,
    List.forall_mem_singleton.mpr ⟨barePage_isPolicyPage .., by decide⟩, barePage_isPolicyPage ..,
    by decide⟩

/-- The entry of a role of a name. -/
def roleEntry (role : String) : Json :=
  .object [("RoleId", .text "AROA"), ("RoleName", .text role)]

/-- A page of roles of some names. -/
def rolePage (roles : List String) (more : List (String × Json)) : Page String where
  result := .object (("PolicyRoles", .list (roles.map roleEntry)) :: more)
  calls := []
  items := roles

theorem rolePage_isRolePage (roles : List String) (more : List (String × Json)) :
    IsRolePage (rolePage roles more) := by
  refine ⟨rfl, _, .list rfl, ?_⟩
  show NamesRoles (roles.map roleEntry) roles
  induction roles with
  | nil => exact .nil
  | cons role rest ih => exact .named rfl ih

/-- A page of roles that is cut short, with one that has no name, one without roles that is cut
short too, and one whose marker does not count. -/
def shopRoles : List (Page String) :=
  [⟨.object [("PolicyRoles", .list [roleEntry "dev", .object [("RoleId", .text "AROA")],
        roleEntry "admin", roleEntry "dev"]),
      ("IsTruncated", .bool true), ("Marker", .text "m")], [], ["dev", "admin", "dev"]⟩,
    ⟨.object [("IsTruncated", .bool true), ("Marker", .text "n")], [], []⟩,
    rolePage ["ops", "billing"] [("IsTruncated", .bool false), ("Marker", .text "o")]]

theorem shopRoles_whole : (rolePaging "p").Whole IsRolePage shopRoles := by
  have hnameless : ∀ role,
      (Json.object [("RoleId", .text "AROA")]).member? "RoleName" ≠ some (.text role) :=
    fun role h => by cases h
  have hmissing : ∀ items,
      (Json.object [("IsTruncated", .bool true), ("Marker", .text "n")]).member? "PolicyRoles" ≠
        some (.list items) :=
    fun items h => by cases h
  have hnames : NamesRoles [roleEntry "dev", .object [("RoleId", .text "AROA")],
      roleEntry "admin", roleEntry "dev"] ["dev", "admin", "dev"] :=
    .named rfl (.nameless hnameless (.named rfl (.named rfl .nil)))
  refine ⟨[_, _], _, rfl, ?_, rolePage_isRolePage .., by decide⟩
  exact List.forall_mem_cons.mpr ⟨⟨⟨rfl, _, .list rfl, hnames⟩, by decide⟩,
    List.forall_mem_singleton.mpr ⟨⟨rfl, _, .nothing hmissing, .nil⟩, by decide⟩⟩

/-- A policy without a resource name. -/
def namelessPolicy : Json := .object [("PolicyName", .text "d")]

/-- The second page of a listing, with a policy that cannot be read. -/
def brokenPage : Json := .object [("Policies", .list [(bareEntry "b").listed, namelessPolicy])]

/-- A listing of policies, one of roles, and a second one of policies up to the one that cannot be
read. -/
def shopExchanges : List Exchange :=
  (policyPaging "/shop/").exchanges none shopPolicies ++
    ((rolePaging "p").exchanges none shopRoles ++
      ((policyPaging "/shop/").exchanges none [barePage ["a"] [("Marker", .text "m")]] ++
        [⟨.listPolicies "/shop/" (some "m"), brokenPage⟩, (bareEntry "b").exchange]))

theorem shopListings_complete :
    World.awsPolicies.CountsDown ∧
      ∃ t u v, World.awsPolicies.list "/shop/" { script := shopExchanges.map (·.answer) } =
          .ok (["a", "b", "c"].map fun name => (bareEntry name).policy) t ∧
        t.events = [.aws (.listPolicies "/shop/" none),
          .aws (.getPolicyVersion (PolicyMemory.arnOf "a") "v3"),
          .aws (.getPolicyVersion (PolicyMemory.arnOf "b") "v3"),
          .aws (.listPolicies "/shop/" (some "m")),
          .aws (.getPolicyVersion (PolicyMemory.arnOf "c") "v3")] ∧
        World.awsPolicies.attachedRoles "p" t =
          .ok ["dev", "admin", "dev", "ops", "billing"] u ∧
        World.awsPolicies.list "/shop/" u = .error (.incomplete "d" "arn") v := by
  have he := World.awsPolicies_countsDown
  obtain ⟨t, hpolicies, hscript, hevents⟩ := World.answers_of_script
    ((policyPaging "/shop/").exchanges none shopPolicies)
    (w := { script := shopExchanges.map (·.answer) }) (List.map_append ..)
  rw [List.map_append] at hscript
  obtain ⟨u, hroles, hscript, -⟩ := World.answers_of_script _ hscript
  rw [List.map_append] at hscript
  obtain ⟨v, hbegun, hscript, -⟩ := World.answers_of_script _ hscript
  obtain ⟨v', hbroken, -, -⟩ := World.answers_of_script _ (hscript.trans (List.append_nil _).symm)
  refine ⟨he, t, u, v', ?_, hevents, ?_, ?_⟩
  · exact ((listings_lose_no_page he _ t).1 "/shop/" _).mpr
      ⟨shopPolicies, shopPolicies_whole, hpolicies, rfl⟩
  · exact ((listings_lose_no_page he t u).2.2.1 "p" _).mpr
      ⟨shopRoles, shopRoles_whole, hroles, rfl⟩
  · refine ((listings_lose_no_page he u v').2.1 "/shop/" _).mpr
      ⟨[barePage ["a"] [("Marker", .text "m")]], v, ?_, hbegun, ?_⟩
    · exact List.forall_mem_singleton.mpr ⟨barePage_isPolicyPage .., by decide⟩
    · have hlists : PageLists "Policies" brokenPage
          ([bareEntry "b"].map (·.listed) ++ [namelessPolicy]) := .list rfl
      exact .policy hlists hbroken (.noArn rfl)

end PgSteward
