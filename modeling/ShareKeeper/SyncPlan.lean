import ShareKeeper.Pass
import ShareKeeper.Resource
import ShareKeeper.Tag.Change

/-!
# Plans that keep a relation in step

Tags, associations and attached permissions are relations of an entity that are moved from what is
observed to what is desired. The plan for it lists the requests: first those that remove, then those
that add, and none for which there is nothing to do. It is carried out request by request, and the
first one that is refused ends it.
-/

namespace ShareKeeper

/-- What is kept in step. -/
inductive Relation where
  | tags
  | associations
  | permissions
  deriving DecidableEq, Repr

def Relation.name : Relation → String
  | .tags => "tags"
  | .associations => "associations"
  | .permissions => "permissions"

/-- The requests that move a relation, and the names under which their calls are noted. -/
structure SyncPlan where
  removals : List Request
  removedAs : CallLabel
  additions : List Request
  addedAs : CallLabel
  deriving DecidableEq, Repr

namespace SyncPlan

/-- All requests, in their order. -/
def requests (p : SyncPlan) : List Request := p.removals ++ p.additions

/-- Carries out a plan up to the first refusal. -/
def perform (p : SyncPlan) : Pass Unit := do
  Pass.askAll p.removedAs p.removals
  Pass.askAll p.addedAs p.additions

/-- A request, unless it would be empty. -/
def when (needed : Bool) (r : Request) : List Request := if needed then [r] else []

/-- The plan for the tags of an entity. -/
def tags (target : TagTarget) (desired observed : List Tag) : SyncPlan :=
  let c := Tags.change desired observed
  { removals := when (!c.toRemove.isEmpty) (.untag target c.toRemove.keys)
    removedAs := ⟨Purpose.update.label, "UntagResource"⟩
    additions := when (!c.toAdd.isEmpty) (.tag target c.toAdd.toList)
    addedAs := ⟨Purpose.update.label, "TagResource"⟩ }

/-- The associations to be added to a share. -/
def associationsToAdd (desired observed : ShareSpec) : AssociationBatch where
  principals := (NameSet.change desired.principals observed.principals).toAdd.toList
  resourceArns := (NameSet.change desired.resourceArns observed.resourceArns).toAdd.toList
  sources := (NameSet.change desired.sources observed.sources).toAdd.toList

/-- The associations to be taken from a share. -/
def associationsToRemove (desired observed : ShareSpec) : AssociationBatch where
  principals := (NameSet.change desired.principals observed.principals).toRemove.toList
  resourceArns := (NameSet.change desired.resourceArns observed.resourceArns).toRemove.toList
  sources := (NameSet.change desired.sources observed.sources).toRemove.toList

/-- The plan for the principals, resources and sources of a share, which change in one call. -/
def associations (arn : String) (desired observed : ShareSpec) : SyncPlan :=
  let toAdd := associationsToAdd desired observed
  let toRemove := associationsToRemove desired observed
  { removals := when (!toRemove.isEmpty) (.disassociate arn toRemove)
    removedAs := ⟨Purpose.update.label, "DisassociateResourceShare"⟩
    additions := when (!toAdd.isEmpty) (.associate arn toAdd)
    addedAs := ⟨Purpose.update.label, "AssociateResourceShare"⟩ }

/-- The plan for the permissions of a share, which change one by one. -/
def permissions (arn : String) (desired observed : List String) : SyncPlan :=
  let c := NameSet.change desired observed
  { removals := c.toRemove.toList.map (.detachPermission arn)
    removedAs := ⟨Purpose.update.label, "DisassociateResourceSharePermission"⟩
    additions := c.toAdd.toList.map (.attachPermission arn)
    addedAs := ⟨Purpose.update.label, "AssociateResourceSharePermission"⟩ }

end SyncPlan

end ShareKeeper
