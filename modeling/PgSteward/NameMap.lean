import Std.Data.ExtTreeMap
import Std.Data.ExtTreeSet

/-!
# Names in order

Sets of names and maps from names.  Both are in the order of the code points of the names, and two
of them are equal when they hold the same.
-/

namespace PgSteward

/-- A set of names. -/
abbrev NameSet := Std.ExtTreeSet String

/-- A map from names. -/
abbrev NameMap (α : Type) := Std.ExtTreeMap String α

namespace NameMap

/-- A map of pairs.  Of two pairs of one name the last counts. -/
def ofPairs {α : Type} (pairs : List (String × α)) : NameMap α :=
  pairs.foldl (fun m p => m.insert p.1 p.2) ∅

/-- The map with an item more in the list of a name. -/
def push {α : Type} (m : NameMap (List α)) (name : String) (a : α) : NameMap (List α) :=
  m.insert name (m.getD name [] ++ [a])

theorem getD_push {α : Type} (m : NameMap (List α)) (name other : String) (a : α) :
    (push m name a).getD other [] =
      if name = other then m.getD name [] ++ [a] else m.getD other [] := by
  simp [push, Std.ExtTreeMap.getD_insert]

end NameMap

end PgSteward
