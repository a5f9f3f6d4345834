import PgSteward.NameMap
import PgSteward.Reference.Resolver

/-!
# Texts in memory

The texts of secrets and config maps.  Each has its place, a key of an object of a namespace, and an
object exists as soon as a text has its place in it.
-/

namespace PgSteward

/-- A key of an object of a namespace. -/
structure TextPlace where
  /-- The namespace. -/
  space : String
  /-- The name of the object. -/
  name : String
  key : String
deriving DecidableEq, Repr

namespace TextPlace

/-- Places in the order of their namespaces, then of their objects, then of their keys. -/
def order : TextPlace → TextPlace → Ordering :=
  compareLex (compareOn space) (compareLex (compareOn name) (compareOn key))

instance : Std.TransCmp order :=
  inferInstanceAs (Std.TransCmp
    (compareLex (compareOn space) (compareLex (compareOn name) (compareOn key))))

instance : Std.LawfulEqCmp order where
  eq_of_compare {p q} h := by
    have hparts : p.space = q.space ∧ p.name = q.name ∧ p.key = q.key := by
      simpa [order, compareLex, compareOn, Ordering.then_eq_eq] using h
    obtain ⟨space, name, key⟩ := p
    obtain ⟨rfl, rfl, rfl⟩ := hparts
    rfl

end TextPlace

/-- The texts of objects by their places. -/
abbrev ObjectTexts := Std.ExtTreeMap TextPlace String TextPlace.order

namespace ObjectTexts

/-- The texts with one more. -/
def add (m : ObjectTexts) (space name key value : String) : ObjectTexts :=
  m.insert ⟨space, name, key⟩ value

/-- Whether an object exists. -/
def hasObject (m : ObjectTexts) (space name : String) : Bool :=
  m.keys.any fun p => p.space = space && p.name = name

/-- The text under a key of an object. -/
def read (m : ObjectTexts) (kind : HolderKind) (space : String) (k : KeyOf) :
    Except LookupError String :=
  match m[TextPlace.mk space k.name k.key]? with
  | some value => .ok value
  | none =>
      if m.hasObject space k.name then .error (.unknownKey kind space k.name k.key)
      else .error (.notFound kind space k.name)

end ObjectTexts

/-- The texts of secrets and config maps. -/
structure HeldTexts where
  secrets : ObjectTexts := ∅
  configMaps : ObjectTexts := ∅
deriving DecidableEq

namespace HeldTexts

/-- The texts of the objects of a kind. -/
def ofKind (h : HeldTexts) : HolderKind → ObjectTexts
  | .secret => h.secrets
  | .configMap => h.configMaps

/-- The texts with one more in an object of a kind. -/
def add (h : HeldTexts) (kind : HolderKind) (space name key value : String) : HeldTexts :=
  match kind with
  | .secret => { h with secrets := h.secrets.add space name key value }
  | .configMap => { h with configMaps := h.configMaps.add space name key value }

/-- The text under a key of an object. -/
def read (h : HeldTexts) (kind : HolderKind) (space : String) (k : KeyOf) :
    Except LookupError String :=
  (h.ofKind kind).read kind space k

/-- Finds the texts of references among fixed texts. -/
def resolver {σ : Type} (h : HeldTexts) : Resolver σ :=
  ⟨fun kind space k => Program.ofExcept (h.read kind space k)⟩

end HeldTexts

end PgSteward
