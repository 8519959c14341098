import ShareKeeper.Json

/-!
# Merge patches

A merge patch (RFC 7386) is itself a JSON value. One that is an object changes the members it names:
a member that is null in the patch is removed, any other is patched recursively. One that is not an
object replaces the target, so lists are replaced and never merged.

The recursion is on the patch; the target only follows.
-/

namespace ShareKeeper.Json

/-- A member list without one name. -/
def dropMember (name : String) (members : List (String × Json)) : List (String × Json) :=
  members.filter (fun m => m.1 ≠ name)

mutual

/-- What a patch makes of a target. -/
def mergePatch (target : Json) : Json → Json
  | .object patch => .object (mergeMembers target.members patch)
  | .null => .null
  | .bool b => .bool b
  | .number n => .number n
  | .string s => .string s
  | .array items => .array items

/-- What the members of a patch make of the members of a target. -/
def mergeMembers (target : List (String × Json)) : List (String × Json) → List (String × Json)
  | [] => target
  | (name, .null) :: rest => mergeMembers (dropMember name target) rest
  | (name, v) :: rest =>
    mergeMembers
      (insertByKey Prod.fst (name, mergePatch ((lookup name target).getD .null) v) target)
      rest

end

end ShareKeeper.Json
