import ShareKeeper.Manager
import ShareKeeper.Share.Delta
import ShareKeeper.SyncPlan

/-!
# The manager of resource shares

The service lists the principals, resources and permissions of a share, but not its sources. What
the controller associated last is therefore kept in the status, and counts as observed.

A share that was deleted is still listed for a while; it counts as absent.
-/

namespace ShareKeeper.Share

/-- The lifecycle state of a share that is only still listed. -/
def deletedState : String := "DELETED"

/-- The object with what the service tells about the share. Whether external principals are let in
is taken over only where the object sets it. -/
def observe (r : Share) (d : ShareDetail) : Share :=
  let spec : ShareSpec :=
    { r.spec with
      name := d.name.getD r.spec.name
      allowExternalPrincipals :=
        if r.spec.allowExternalPrincipals.isSome then d.allowExternalPrincipals else none }
  let s := r.statusD
  let identity :=
    match d.arn with
    | some arn =>
      let i := s.identity.getD .empty
      some { i with arn := some arn, ownerAccountId := i.ownerAccountId.or d.owningAccountId }
    | none => s.identity
  { r with
    spec
    status := some
      { identity
        conditions := s.conditions
        creationTime := d.creationTime
        lastUpdatedTime := d.lastUpdatedTime
        featureSet := d.featureSet
        state := d.status
        facts :=
          { owningAccountId := d.owningAccountId
            statusMessage := d.statusMessage
            associatedSources := s.facts.associatedSources } } }

/-- The lists of identifiers in a specification, under their names. -/
def identifierLists (s : ShareSpec) : List (String × List String) :=
  [("permissionARNs", s.permissionArns), ("principals", s.principals),
   ("resourceARNs", s.resourceArns), ("sources", s.sources)]

def validate (r : Share) : Except Failure Unit :=
  if Text.isBlankText r.spec.name then .error (.validation (.blank "name"))
  else
    match (identifierLists r.spec).find? fun l => l.2.any Text.isBlankText with
    | some l => .error (.validation (.blankEntry l.1))
    | none => .ok ()

/-- The sources that the controller associated last. -/
def associatedSources (r : Share) : List String :=
  (r.status.map fun s => s.facts.associatedSources).getD []

/-- Remembers which sources are associated. -/
def withSources (r : Share) (sources : List String) : Share :=
  r.updateStatus fun s => { s with facts := { s.facts with associatedSources := sources } }

/-- What is associated with a share. -/
def associated (arn : String) (type : AssociationType) : Pass (List String) :=
  Pass.ask (.listAssociations arn type)
    >>= Pass.record ⟨Purpose.readMany.label, "GetResourceShareAssociations"⟩

/-- The permissions to compare with: the attached ones if any are desired. The service attaches a
default permission to a share for which none is. -/
def readPermissions (arn : String) (desired : Share) : Pass (List String) :=
  if desired.spec.permissionArns.isEmpty then pure desired.spec.permissionArns
  else
    Pass.ask (.listPermissions arn)
      >>= Pass.record ⟨Purpose.readMany.label, "ListResourceSharePermissions"⟩

def readOne (desired : Share) : Pass Share := do
  let arn ← Pass.lift desired.requireArn
  let detail ← Pass.ask (.getShare arn)
    >>= Pass.record ⟨Purpose.readMany.label, "GetResourceShares"⟩
  if detail.status = some deletedState then Pass.fail .notFound
  else
    let latest := observe desired detail
    let principals ← associated arn .principal
    let resourceArns ← associated arn .resource
    let permissionArns ← readPermissions arn desired
    return { latest with
      spec := { latest.spec with
        tags := Tags.visible detail.tags
        principals
        resourceArns
        permissionArns
        sources := associatedSources latest } }

/-- What the share is created from. -/
def input (r : Share) : ShareInput where
  name := r.spec.name
  allowExternalPrincipals := r.spec.allowExternalPrincipals
  permissionArns := r.spec.permissionArns
  principals := r.spec.principals
  resourceArns := r.spec.resourceArns
  sources := r.spec.sources
  tags := r.creationTags r.spec.tags

def create (desired : Share) : Pass Share := do
  let detail ← Pass.ask (.createShare desired.input)
    >>= Pass.record ⟨Purpose.create.label, "CreateResourceShare"⟩
  return withSources (observe desired detail) desired.spec.sources

/-- Changes name and openness if either differs. -/
def updateSettings (arn : String) (desired : Share) (d : Delta) (updated : Share) : Pass Share :=
  if d.differentAt "Spec.Name" || d.differentAt "Spec.AllowExternalPrincipals" then do
    let detail ← Pass.ask
        (.updateShare arn (some desired.spec.name) desired.spec.allowExternalPrincipals)
      >>= Pass.record ⟨Purpose.update.label, "UpdateResourceShare"⟩
    return observe updated detail
  else pure updated

/-- Brings the tags in step if they differ. -/
def syncTags (arn : String) (desired latest : Share) (d : Delta) : Pass Unit :=
  if d.differentAt "Spec.Tags" then
    (SyncPlan.tags (.share arn) desired.spec.tags latest.spec.tags).perform
  else pure ()

/-- Brings principals, resources and sources in step if any of them differ, and remembers the
sources. -/
def syncAssociations (arn : String) (desired latest : Share) (d : Delta) (updated : Share) :
    Pass Share :=
  if d.differentAt "Spec.Principals" || d.differentAt "Spec.ResourceARNs"
      || d.differentAt "Spec.Sources" then do
    (SyncPlan.associations arn desired.spec latest.spec).perform
    return withSources updated desired.spec.sources
  else pure updated

/-- Brings the permissions in step if they differ. -/
def syncPermissions (arn : String) (desired latest : Share) (d : Delta) : Pass Unit :=
  if d.differentAt "Spec.PermissionARNs" then
    (SyncPlan.permissions arn desired.spec.permissionArns latest.spec.permissionArns).perform
  else pure ()

def update (desired latest : Share) (d : Delta) : Pass Share := do
  let arn ← Pass.lift latest.requireArn
  let updated ← updateSettings arn desired d { desired with status := latest.status }
  syncTags arn desired latest d
  let updated ← syncAssociations arn desired latest d updated
  syncPermissions arn desired latest d
  return updated

def delete (latest : Share) : Pass Unit := do
  let arn ← Pass.lift latest.requireArn
  Pass.ask (.deleteShare arn) >>= Pass.record ⟨Purpose.delete.label, "DeleteResourceShare"⟩

def manager : Manager .share where
  validate := validate
  readOne := readOne
  create := create
  update := update
  delete := delete
  delta := delta
  requeueAfterUpdate := fun _ => false

end ShareKeeper.Share
