import ShareKeeper.Manager
import ShareKeeper.Permission.Delta
import ShareKeeper.Permission.Rotation
import ShareKeeper.SyncPlan

/-!
# The manager of permissions

Name and resource type are fixed once the permission exists. Tags are changed in place, a policy by
rotating versions. A new version takes a while to show, so a pass that rotated asks to be repeated.
-/

namespace ShareKeeper.Permission

/-- The object with what the service tells about the permission. -/
def observe (p : Permission) (d : PermissionDetail) : Permission :=
  let spec : PermissionSpec :=
    { p.spec with
      name := d.name.getD p.spec.name
      resourceType := d.resourceType.getD p.spec.resourceType
      policyTemplate := d.policyTemplate.getD p.spec.policyTemplate }
  let s := p.statusD
  let identity :=
    match d.arn with
    | some arn => some { s.identity.getD .empty with arn := some arn }
    | none => s.identity
  { p with
    spec
    status := some
      { identity
        conditions := s.conditions
        creationTime := d.creationTime
        lastUpdatedTime := d.lastUpdatedTime
        featureSet := d.featureSet
        state := d.status
        facts :=
          { defaultVersion := d.defaultVersion
            isResourceTypeDefault := d.isResourceTypeDefault
            permissionType := d.permissionType
            version := d.version } } }

def validate (p : Permission) : Except Failure Unit :=
  if Text.isBlankText p.spec.name then .error (.validation (.blank "name"))
  else if Text.isBlankText p.spec.resourceType then .error (.validation (.blank "resourceType"))
  else
    match Json.read p.spec.policyTemplate with
    | .ok _ => .ok ()
    | .error e => .error (.validation (.policyNotJson e))

def readOne (desired : Permission) : Pass Permission := do
  let arn ← Pass.lift desired.requireArn
  let detail ← Pass.ask (.getPermission arn none)
    >>= Pass.record ⟨Purpose.readOne.label, "GetPermission"⟩
  let latest := observe desired detail
  return { latest with spec := { latest.spec with tags := Tags.visible detail.tags } }

/-- What the permission is created from. -/
def input (p : Permission) : PermissionInput where
  name := p.spec.name
  resourceType := p.spec.resourceType
  policyTemplate := p.spec.policyTemplate
  tags := p.creationTags p.spec.tags

def create (desired : Permission) : Pass Permission := do
  let detail ← Pass.ask (.createPermission desired.input)
    >>= Pass.record ⟨Purpose.create.label, "CreatePermission"⟩
  return observe desired detail

/-- Refuses to change what is fixed. -/
def refuseImmutable (d : Delta) : Except Failure Unit :=
  if d.differentAt "Spec.Name" then .error (.validation (.immutable "Spec.Name"))
  else if d.differentAt "Spec.ResourceType" then .error (.validation (.immutable "Spec.ResourceType"))
  else .ok ()

/-- Brings the tags in step if they differ. -/
def syncTags (arn : String) (desired latest : Permission) (d : Delta) : Pass Unit :=
  if d.differentAt "Spec.Tags" then
    (SyncPlan.tags (.resource arn) desired.spec.tags latest.spec.tags).perform
  else pure ()

/-- Rotates the policy if it differs. -/
def rotatePolicy (arn : String) (desired latest : Permission) (d : Delta) (updated : Permission) :
    Pass Permission :=
  if d.differentAt "Spec.PolicyTemplate" then do
    let previous := latest.status.bind fun s => s.facts.version
    let rotation ← Rotation.run arn previous desired.spec.policyTemplate
    let created ← Pass.lift rotation.result
    return observe updated created
  else pure updated

def update (desired latest : Permission) (d : Delta) : Pass Permission := do
  Pass.lift (refuseImmutable d)
  let arn ← Pass.lift latest.requireArn
  syncTags arn desired latest d
  rotatePolicy arn desired latest d { desired with status := latest.status }

def delete (latest : Permission) : Pass Unit := do
  let arn ← Pass.lift latest.requireArn
  Pass.ask (.deletePermission arn) >>= Pass.record ⟨Purpose.delete.label, "DeletePermission"⟩

/-- A change of policy shows only in a later look. -/
def requeueAfterUpdate (d : Delta) : Bool := d.differentAt "Spec.PolicyTemplate"

def manager : Manager .permission where
  validate := validate
  readOne := readOne
  create := create
  update := update
  delete := delete
  delta := delta
  requeueAfterUpdate := requeueAfterUpdate

end ShareKeeper.Permission
