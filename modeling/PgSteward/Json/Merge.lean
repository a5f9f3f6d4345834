import PgSteward.Json.Value

/-!
# Merge patches

A merge patch (RFC 7386) is a value of the same form as its target.  A patch that is an object sets
the members of the target one by one: a null member removes, any other merges into what is there.
A patch that is no object takes the place of the target.
-/

namespace PgSteward.Json

/-- Whether a value is null. -/
def isNull : Json → Bool
  | .null => true
  | _ => false

mutual

/-- A target after a merge patch. -/
def merge (target : Json) : (patch : Json) → Json
  | .object changes => .object (mergeMembers target.members changes)
  | patch => patch

/-- The members of a target after the members of a merge patch. -/
def mergeMembers (target : JsonMembers) : (changes : List (String × Json)) → JsonMembers
  | [] => target
  | change :: rest => mergeMembers (mergeMember target change) rest

/-- The members of a target after one member of a merge patch. -/
def mergeMember (target : JsonMembers) : (change : String × Json) → JsonMembers
  | (name, value) =>
      if value.isNull then JsonMembers.drop name target
      else JsonMembers.put name (merge ((JsonMembers.find? name target).getD .null) value) target

end

example : merge (.object [("a", .text "b"), ("c", .null)])
      (.object [("a", .null), ("d", .object [("e", .null), ("f", .bool true)])])
    = .object [("c", .null), ("d", .object [("f", .bool true)])] := by rfl

end PgSteward.Json
