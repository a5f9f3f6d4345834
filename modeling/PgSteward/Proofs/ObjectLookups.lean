import PgSteward.Kube.Store
import PgSteward.Proofs.EncodedBytes
import PgSteward.Proofs.ProgramRuns
import PgSteward.Reference.Memory

/-!
# Texts of objects

References are resolved in two ways: against the secrets and config maps of a cluster, which are
read one at a time and decoded (`KubeClient.resolver`), and against a table of texts by their places
(`HeldTexts.resolver`).  Here both have the texts of the same objects, each of which has a key at
least.  A cluster has the bytes of the texts in its secrets; the table has been given the texts one
after the other, in any order.

Both read a key as the objects answer it (`HeldTexts.Fills.read`, `KubeClient.Shows.textOf`), so
they take every reference alike (`HeldObjects.resolvers_agree`).
-/

namespace PgSteward

open Program

/-! ## Objects -/

/-- Secrets and config maps with their texts. -/
structure HeldObjects where
  /-- The texts of an object by their keys, if it exists. -/
  texts : HolderKind → (space name : String) → Option (NameMap String)
  /-- An object has a key. -/
  hasKey : ∀ kind space name m, texts kind space name = some m → ∃ key, key ∈ m

/-- The text under a key of an object of a kind, which need not exist. -/
def textIn (kind : HolderKind) (space : String) (k : KeyOf) :
    Option (NameMap String) → Except LookupError String
  | none => .error (.notFound kind space k.name)
  | some m =>
      match m[k.key]? with
      | none => .error (.unknownKey kind space k.name k.key)
      | some text => .ok text

namespace HeldObjects

variable (o : HeldObjects)

/-- The text at a place in the objects of a kind. -/
def text? (kind : HolderKind) (p : TextPlace) : Option String :=
  (o.texts kind p.space p.name).bind fun m => m[p.key]?

/-- What the objects answer for a key of one of them. -/
def answer (kind : HolderKind) (space : String) (k : KeyOf) : Except LookupError String :=
  textIn kind space k (o.texts kind space k.name)

/-- What the objects answer for a reference. -/
def answerTo (space : String) (reference : Reference) : Except LookupError String :=
  reference.lookup >>= fun
    | .inline value => .ok value
    | .held kind k => o.answer kind space k

variable {o}

/-- An object exists exactly when there is a text in it. -/
theorem isSome_texts_iff {kind : HolderKind} {space name : String} :
    (o.texts kind space name).isSome = true ↔ ∃ key text, o.text? kind ⟨space, name, key⟩ =
      some text := by
  cases hobject : o.texts kind space name with
  | none => simp [text?, hobject]
  | some m =>
      obtain ⟨key, hkey⟩ := o.hasKey kind space name m hobject
      rw [Std.ExtTreeMap.mem_iff_isSome_getElem?, Option.isSome_iff_exists] at hkey
      obtain ⟨text, hget⟩ := hkey
      exact iff_of_true rfl ⟨key, text, by simp [text?, hobject, hget]⟩

end HeldObjects

/-! ## Tables of texts -/

/-- An object exists exactly when a text has its place in it. -/
theorem ObjectTexts.hasObject_iff {m : ObjectTexts} {space name : String} :
    m.hasObject space name = true ↔ ∃ key text, m[TextPlace.mk space name key]? = some text := by
  unfold hasObject
  rw [List.any_eq_true]
  constructor
  · rintro ⟨⟨_, _, key⟩, hmem, hplace⟩
    obtain ⟨rfl, rfl⟩ : _ = space ∧ _ = name := by simpa using hplace
    rw [Std.ExtTreeMap.mem_keys, Std.ExtTreeMap.mem_iff_isSome_getElem?,
      Option.isSome_iff_exists] at hmem
    exact ⟨key, hmem⟩
  · rintro ⟨key, text, hget⟩
    refine ⟨⟨space, name, key⟩, ?_, by simp⟩
    rw [Std.ExtTreeMap.mem_keys, Std.ExtTreeMap.mem_iff_isSome_getElem?, hget]
    rfl

/-- A text with its place in the objects of a kind. -/
structure TextEntry where
  kind : HolderKind
  place : TextPlace
  text : String

namespace HeldTexts

/-- A table with one text more. -/
def give (h : HeldTexts) (e : TextEntry) : HeldTexts :=
  h.add e.kind e.place.space e.place.name e.place.key e.text

/-- The table of some texts, given one after the other. -/
def ofEntries (entries : List TextEntry) : HeldTexts := entries.foldl give {}

/-- A text that is given takes its place, and no other is moved. -/
theorem getElem?_give (h : HeldTexts) (e : TextEntry) (kind : HolderKind) (p : TextPlace) :
    ((h.give e).ofKind kind)[p]? =
      if e.kind = kind ∧ e.place = p then some e.text else (h.ofKind kind)[p]? := by
  obtain ⟨given, place, text⟩ := e
  cases given <;> cases kind <;>
    simp [give, add, ofKind, ObjectTexts.add, Std.ExtTreeMap.getElem?_insert]

variable {h : HeldTexts} {o : HeldObjects} {entries : List TextEntry} {kind : HolderKind}
  {p : TextPlace}

/-- Texts of objects are found in a table that they are given to, besides those that it has. -/
theorem getElem?_foldl_give
    (hentries : ∀ e ∈ entries, o.text? e.kind e.place = some e.text)
    (hbefore : ∀ text, (h.ofKind kind)[p]? = some text → o.text? kind p = some text)
    {text : String} :
    ((entries.foldl give h).ofKind kind)[p]? = some text ↔
      (h.ofKind kind)[p]? = some text ∨ ⟨kind, p, text⟩ ∈ entries := by
  induction entries generalizing h with
  | nil => simp
  | cons e rest ih =>
      have hfirst := hentries e (List.mem_cons_self ..)
      have hafter : ∀ text, ((h.give e).ofKind kind)[p]? = some text →
          o.text? kind p = some text := by
        intro text hget
        rw [getElem?_give] at hget
        split at hget
        next hsame =>
          cases hget
          rw [← hsame.1, ← hsame.2, hfirst]
        next => exact hbefore text hget
      rw [List.foldl_cons, ih (fun e he => hentries e (List.mem_cons_of_mem _ he)) hafter,
        List.mem_cons, ← or_assoc, getElem?_give]
      refine or_congr_left ?_
      obtain ⟨_, _, first⟩ := e
      split
      next hsame =>
        obtain ⟨rfl, rfl⟩ := hsame
        constructor
        · intro hget
          cases hget
          exact .inr rfl
        · -- What the table has at this place already is the same text of the objects.
          rintro (hget | hentry)
          · exact hfirst.symm.trans (hbefore text hget)
          · cases hentry
            rfl
      next hother =>
        refine (or_iff_left fun hentry => ?_).symm
        cases hentry
        exact hother ⟨rfl, rfl⟩

/-- Whether a table has the texts of some objects and no others. -/
def Fills (h : HeldTexts) (o : HeldObjects) : Prop :=
  ∀ kind p, (h.ofKind kind)[p]? = o.text? kind p

/-- A table that has been given the texts of some objects, in any order, has them and no others. -/
theorem fills_ofEntries (hentries : ∀ e, e ∈ entries ↔ o.text? e.kind e.place = some e.text) :
    (ofEntries entries).Fills o := by
  intro kind p
  have hempty : (({} : HeldTexts).ofKind kind)[p]? = none := by
    cases kind <;> simp [ofKind]
  refine Option.ext fun text => ?_
  rw [ofEntries, getElem?_foldl_give (fun e he => (hentries e).mp he) (by simp [hempty]), hempty,
    or_iff_right (by simp), hentries]

/-- A table knows an object exactly when it exists. -/
theorem Fills.hasObject (hfills : h.Fills o) (kind : HolderKind) (space name : String) :
    (h.ofKind kind).hasObject space name = (o.texts kind space name).isSome := by
  rw [Bool.eq_iff_iff, ObjectTexts.hasObject_iff, HeldObjects.isSome_texts_iff]
  simp only [hfills kind]

/-- A table reads a key as the objects answer it. -/
theorem Fills.read (hfills : h.Fills o) (kind : HolderKind) (space : String) (k : KeyOf) :
    h.read kind space k = o.answer kind space k := by
  unfold HeldTexts.read ObjectTexts.read HeldObjects.answer
  rw [hfills kind, hfills.hasObject, HeldObjects.text?]
  cases o.texts kind space k.name with
  | none => rfl
  | some m => cases hget : m[k.key]? <;> simp [textIn, hget]

end HeldTexts

/-! ## Clusters -/

/-- The bytes of texts. -/
def bytesOf (m : NameMap String) : NameMap (List UInt8) :=
  m.map fun _ text => Text.toUtf8 text.toList

/-- A secret with the bytes of texts has the texts. -/
theorem secretText_bytesOf (found : Option (NameMap String)) (space : String) (k : KeyOf) :
    secretText (found.map bytesOf) space k = textIn .secret space k found := by
  cases found with
  | none => rfl
  | some m =>
      cases hget : m[k.key]? <;> simp [secretText, textIn, bytesOf, hget, Text.ofUtf8_toUtf8]

theorem configMapText_eq (found : Option (NameMap String)) (space : String) (k : KeyOf) :
    configMapText found space k = textIn .configMap space k found := by
  cases found with
  | none => rfl
  | some m => rfl

namespace KubeClient

theorem toFailure_statusObject (message : String) :
    KubeResponse.toFailure (KubeStore.statusObject 404 "NotFound" message) =
      .ok ⟨"Failure", message, "NotFound", 404⟩ := by
  rfl

/-- The response for an object that does not exist says so. -/
theorem failure_notFound (kind : KubeKind) (name : String) :
    (KubeStore.notFound kind name).failure.reason = "NotFound" := by
  unfold KubeResponse.failure
  simp [KubeStore.notFound, KubeStore.failed, KubeBody.value?, toFailure_statusObject]

variable {σ : Type} {c : KubeClient σ} {o : HeldObjects} {w : σ}

/-- An object that does not exist is not found. -/
theorem find?_of_notFound {α : Type} {kind : KubeKind} {decode : Decoder α} {space name : String}
    {t : σ} (h : c.send (.get kind space name) w = .ok (KubeStore.notFound kind name) t) :
    c.find? kind decode space name w = .ok none t := by
  have hask : c.ask decode (.get kind space name) w =
      .error (.api (KubeStore.notFound kind name).failure) t := by
    rw [ask, bind_of_ok h]
    rfl
  have hreason : (KubeError.api (KubeStore.notFound kind name).failure).isNotFound = true := by
    rw [KubeError.isNotFound, failure_notFound]
    rfl
  rw [find?, bind_of_ok (attempt_of_error hask)]
  simp only [hreason, if_true]
  rfl

/-- Whether a cluster has some objects and no others.  Its secrets hold the bytes of the texts. -/
structure Shows (c : KubeClient σ) (o : HeldObjects) (w : σ) : Prop where
  secrets : ∀ space name, ∃ t, c.find? .secret toSecret space name w =
    .ok ((o.texts .secret space name).map bytesOf) t
  configMaps : ∀ space name, ∃ t, c.find? .configMap toConfigMap space name w =
    .ok (o.texts .configMap space name) t

/-- A cluster reads a key as the objects answer it. -/
theorem Shows.textOf (h : c.Shows o w) (kind : HolderKind) (space : String) (k : KeyOf) :
    ((c.textOf kind space k).outcome w).1 = o.answer kind space k := by
  cases kind with
  | secret =>
      obtain ⟨t, hfound⟩ := h.secrets space k.name
      rw [KubeClient.textOf, outcome, bind_of_ok (mapError_eq_ok_iff.mpr hfound),
        secretText_bytesOf, HeldObjects.answer]
      cases textIn .secret space k (o.texts .secret space k.name) <;> rfl
  | configMap =>
      obtain ⟨t, hfound⟩ := h.configMaps space k.name
      rw [KubeClient.textOf, outcome, bind_of_ok (mapError_eq_ok_iff.mpr hfound),
        configMapText_eq, HeldObjects.answer]
      cases textIn .configMap space k (o.texts .configMap space k.name) <;> rfl

end KubeClient

/-! ## References -/

/-- Objects answer that there is no value exactly for an empty reference. -/
theorem HeldObjects.answerTo_eq_noValue_iff {o : HeldObjects} {space : String}
    {reference : Reference} :
    o.answerTo space reference = .error .noValue ↔ reference.isEmpty = true := by
  rw [← reference.lookup_eq_noValue_iff, answerTo]
  cases reference.lookup with
  | error e => simp [bind, Except.bind]
  | ok found =>
      refine iff_of_false ?_ nofun
      cases found with
      | inline value => nofun
      | held kind k =>
          change textIn kind space k (o.texts kind space k.name) ≠ .error .noValue
          unfold textIn
          split
          · nofun
          · split <;> nofun

namespace Resolver

variable {σ : Type} {r : Resolver σ} {o : HeldObjects} {space : String} {w : σ}

/-- Whether a resolver reads every key as some objects answer it. -/
def Reads (r : Resolver σ) (o : HeldObjects) (space : String) (w : σ) : Prop :=
  ∀ kind k, ((r.read kind space k).outcome w).1 = o.answer kind space k

/-- What a resolver makes of a reference. -/
structure Takes (r : Resolver σ) (o : HeldObjects) (space : String) (reference : Reference)
    (w : σ) : Prop where
  /-- It answers what the objects answer. -/
  answer : ((r.resolve space reference).outcome w).1 = o.answerTo space reference
  /-- It finds no value exactly in an empty reference. -/
  noValue : ((r.resolve space reference).outcome w).1 = .error .noValue ↔ reference.isEmpty = true
  /-- An inline value wins over everything. -/
  inline : reference.value ≠ "" → r.resolve space reference = pure reference.value
  /-- Without one, a secret wins over a config map. -/
  secret : ∀ k configMap, reference.value = "" → reference.source = some ⟨some k, configMap⟩ →
    r.resolve space reference = r.read .secret space k
  /-- Without a secret, the config map is read. -/
  configMap : ∀ k, reference.value = "" → reference.source = some ⟨none, some k⟩ →
    r.resolve space reference = r.read .configMap space k

theorem Reads.answer (h : r.Reads o space w) (reference : Reference) :
    ((r.resolve space reference).outcome w).1 = o.answerTo space reference := by
  unfold resolve HeldObjects.answerTo
  cases reference.lookup with
  | error e => rfl
  | ok found =>
      cases found with
      | inline value => rfl
      | held kind k => exact h kind k

theorem Reads.takes (h : r.Reads o space w) (reference : Reference) :
    r.Takes o space reference w where
  answer := h.answer reference
  noValue := by rw [h.answer, HeldObjects.answerTo_eq_noValue_iff]
  inline := fun hvalue => by
    unfold resolve Reference.lookup
    rw [if_pos (by simpa using hvalue)]
    rfl
  secret := fun k configMap hvalue hsource => by
    unfold resolve Reference.lookup
    rw [hvalue, hsource]
    rfl
  configMap := fun k hvalue hsource => by
    unfold resolve Reference.lookup
    rw [hvalue, hsource]
    rfl

end Resolver

/-- A cluster that shows some objects and a table that has been given their texts, in any order,
take every reference alike. -/
theorem HeldObjects.resolvers_agree {σ τ : Type} (o : HeldObjects) (entries : List TextEntry)
    (hentries : ∀ e, e ∈ entries ↔ o.text? e.kind e.place = some e.text) (c : KubeClient σ) (w : σ)
    (hshows : c.Shows o w) (u : τ) (space : String) (reference : Reference) :
    ((c.resolver.resolve space reference).outcome w).1 =
        (((HeldTexts.ofEntries entries).resolver.resolve space reference).outcome u).1 ∧
      c.resolver.Takes o space reference w ∧
      (HeldTexts.ofEntries entries).resolver.Takes o space reference u := by
  have hcluster : c.resolver.Reads o space w := fun kind k => hshows.textOf kind space k
  have htable : (HeldTexts.ofEntries entries).resolver.Reads o space u := by
    intro kind k
    change ((Program.ofExcept ((HeldTexts.ofEntries entries).read kind space k) :
      Program τ LookupError String).outcome u).1 = _
    rw [(HeldTexts.fills_ofEntries hentries).read]
    cases o.answer kind space k <;> rfl
  have htakes := hcluster.takes reference
  have htakes' := htable.takes reference
  exact ⟨htakes.answer.trans htakes'.answer.symm, htakes, htakes'⟩

/-! ## A secret and a config map -/

/-- The texts of a secret with a password and of a config map with a host. -/
def shopTexts (kind : HolderKind) (space name : String) : Option (NameMap String) :=
  if space = "shop" ∧ name = "db" then
    some (match kind with
      | .secret => NameMap.ofPairs [("password", "hüt")]
      | .configMap => NameMap.ofPairs [("host", "db:5432"), ("name", "orders")])
  else none

theorem shopTexts_of_not {kind : HolderKind} {space name : String}
    (h : ¬(space = "shop" ∧ name = "db")) : shopTexts kind space name = none := if_neg h

theorem exists_mem_shopTexts (kind : HolderKind) (space name : String) (m : NameMap String)
    (h : shopTexts kind space name = some m) : ∃ key, key ∈ m := by
  unfold shopTexts at h
  split at h
  next =>
    cases kind with
    | secret =>
        cases h
        exact ⟨"password", by decide +kernel⟩
    | configMap =>
        cases h
        exact ⟨"host", by decide +kernel⟩
  next => cases h

/-- A secret with a password and a config map with a host. -/
def shopObjects : HeldObjects := ⟨shopTexts, exists_mem_shopTexts⟩

/-- Their texts, the later one of a config map first. -/
def shopEntries : List TextEntry :=
  [⟨.configMap, ⟨"shop", "db", "name"⟩, "orders"⟩, ⟨.secret, ⟨"shop", "db", "password"⟩, "hüt"⟩,
    ⟨.configMap, ⟨"shop", "db", "host"⟩, "db:5432"⟩]

/-- A cluster with the secret and the config map. -/
def shopClient : KubeClient Unit where
  send := fun request => pure <|
    match request with
    | .get .secret space name =>
        if space = "shop" ∧ name = "db" then
          KubeStore.ok (.object [("data", .object [("password", .text "aMO8dA==")])])
        else KubeStore.notFound .secret name
    | .get .configMap space name =>
        if space = "shop" ∧ name = "db" then
          KubeStore.ok (.object [("data", .object [("host", .text "db:5432"),
            ("name", .text "orders")])])
        else KubeStore.notFound .configMap name
    | _ => KubeStore.failed 403 "Forbidden" "not allowed"

theorem place_of_mem_shopEntries :
    ∀ e ∈ shopEntries, e.place.space = "shop" ∧ e.place.name = "db" := by
  decide

theorem shopEntries_iff (e : TextEntry) :
    e ∈ shopEntries ↔ shopObjects.text? e.kind e.place = some e.text := by
  obtain ⟨kind, ⟨space, name, key⟩, text⟩ := e
  by_cases h : space = "shop" ∧ name = "db"
  · obtain ⟨rfl, rfl⟩ := h
    simp only [shopEntries, HeldObjects.text?, shopObjects, shopTexts, and_self, if_true,
      Option.bind_some]
    cases kind with
    | secret =>
        have hget : (NameMap.ofPairs [("password", "hüt")])[key]? =
            if "password" = key then some "hüt" else none := by
          simp [NameMap.ofPairs, Std.ExtTreeMap.getElem?_insert]
        rw [hget]
        split
        next hkey => simp [← hkey, eq_comm]
        next hkey => simp [Ne.symm hkey]
    | configMap =>
        have hget : (NameMap.ofPairs [("host", "db:5432"), ("name", "orders")])[key]? =
            if "name" = key then some "orders" else if "host" = key then some "db:5432"
            else none := by
          simp [NameMap.ofPairs, Std.ExtTreeMap.getElem?_insert]
        rw [hget]
        split
        next hname => simp [← hname, eq_comm]
        next hname =>
          split
          next hhost => simp [← hhost, eq_comm]
          next hhost => simp [Ne.symm hname, Ne.symm hhost]
  · refine iff_of_false (fun hmem => h (place_of_mem_shopEntries _ hmem)) ?_
    simp [HeldObjects.text?, shopObjects, shopTexts_of_not h]

theorem shopClient_shows : shopClient.Shows shopObjects () where
  secrets := fun space name => by
    by_cases h : space = "shop" ∧ name = "db"
    · obtain ⟨rfl, rfl⟩ := h
      exact ⟨(), rfl⟩
    · have hsend : shopClient.send (.get .secret space name) () =
          .ok (KubeStore.notFound .secret name) () := by
        simp only [shopClient, if_neg h]
        rfl
      exact ⟨(), by simp [KubeClient.find?_of_notFound hsend, shopObjects, shopTexts_of_not h]⟩
  configMaps := fun space name => by
    by_cases h : space = "shop" ∧ name = "db"
    · obtain ⟨rfl, rfl⟩ := h
      exact ⟨(), rfl⟩
    · have hsend : shopClient.send (.get .configMap space name) () =
          .ok (KubeStore.notFound .configMap name) () := by
        simp only [shopClient, if_neg h]
        rfl
      exact ⟨(), by simp [KubeClient.find?_of_notFound hsend, shopObjects, shopTexts_of_not h]⟩

/-- The cluster and the table find the password, and both prefer the secret to the config map. -/
theorem shopObjects_resolved :
    (∀ e, e ∈ shopEntries ↔ shopObjects.text? e.kind e.place = some e.text) ∧
      shopClient.Shows shopObjects () ∧
      ((shopClient.resolver.resolve "shop"
        { source := some ⟨some ⟨"db", "password"⟩, some ⟨"db", "host"⟩⟩ }).outcome ()).1 =
          .ok "hüt" ∧
      (((HeldTexts.ofEntries shopEntries).resolver.resolve "shop"
        { source := some ⟨some ⟨"db", "user"⟩, some ⟨"db", "host"⟩⟩ }).outcome ()).1 =
          .error (.unknownKey .secret "shop" "db" "user") := by
  have hpassword := HeldObjects.resolvers_agree shopObjects shopEntries shopEntries_iff shopClient
    () shopClient_shows () "shop"
    { source := some ⟨some ⟨"db", "password"⟩, some ⟨"db", "host"⟩⟩ }
  have huser := HeldObjects.resolvers_agree shopObjects shopEntries shopEntries_iff shopClient
    () shopClient_shows () "shop"
    { source := some ⟨some ⟨"db", "user"⟩, some ⟨"db", "host"⟩⟩ }
  refine ⟨shopEntries_iff, shopClient_shows, ?_, ?_⟩
  · rw [hpassword.2.1.answer]
    decide +kernel
  · rw [huser.2.2.answer]
    decide +kernel

end PgSteward
