import ShareKeeper.Delta
import ShareKeeper.Pass
import ShareKeeper.Resource

/-!
# Managers

A manager knows how one kind of resource maps onto the sharing service: what can be desired at all,
how the entity behind an object is looked at, created, updated and deleted, and in which fields two
snapshots differ.
-/

namespace ShareKeeper

structure Manager (k : Kind) where
  /-- Refuses what can never be reached. -/
  validate : Resource k → Except Failure Unit
  /-- The object as the service has it; fails with `notFound` if there is no entity. -/
  readOne : Resource k → Pass (Resource k)
  create : Resource k → Pass (Resource k)
  /-- Moves the entity from the latest to the desired state in the fields of a delta. -/
  update : (desired latest : Resource k) → Delta → Pass (Resource k)
  delete : Resource k → Pass Unit
  delta : Option (Resource k) → Option (Resource k) → Delta
  /-- Whether an update in these fields shows only in a later look. -/
  requeueAfterUpdate : Delta → Bool

namespace Resource

variable {k : Kind}

/-- The ARN of the entity, without which there is none. -/
def requireArn (r : Resource k) : Except Failure String :=
  match r.arn with
  | some arn => .ok arn
  | none => .error .notFound

/-- The tags that an entity created for the object gets. -/
def creationTags (r : Resource k) (tags : List Tag) : List Tag :=
  ((Tags.system r.namespaceName).union (Tags.ofTags tags)).toList

end Resource

/-- The observed tags that a specification is compared with. -/
def Tags.visible (observed : List Tag) : List Tag := (Tags.ofTags observed).withoutSystem.toList

end ShareKeeper
