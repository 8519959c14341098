import ShareKeeper.Change
import ShareKeeper.Service.Request
import ShareKeeper.Tag

/-!
# An account of the sharing service, in memory

The permissions and shares of one account, each under its ARN, and what every request does to them
(`Account.serve`). The effects are immediate: a created entity can be used at once, and a deleted
share stays listed in the state `DELETED`.

A request that addresses an entity which is not there is refused, apart from changes of tags, which
then have no effect, and from the deletion of a permission version, which always succeeds: the
account keeps the version that is the default and no others.
-/

namespace ShareKeeper

structure PermissionRecord where
  arn : String
  detail : PermissionDetail
  deriving DecidableEq

structure ShareRecord where
  arn : String
  detail : ShareDetail
  principals : NameSet
  resources : NameSet
  sources : NameSet
  permissions : NameSet
  deriving DecidableEq

structure Account where
  permissions : Roster PermissionRecord.arn
  shares : Roster ShareRecord.arn
  deriving DecidableEq

namespace Account

def empty : Account := ⟨.empty, .empty⟩

instance : Inhabited Account := ⟨empty⟩

/-! ## Names and details of what is created -/

def accountId : String := "111122223333"

def arnStem : String := "arn:aws:ram:us-west-2:" ++ accountId ++ ":"

/-- The ARN that a permission gets by its name. -/
def permissionArn (name : String) : String := arnStem ++ "permission/" ++ name

/-- The ARN that a share gets by its name. -/
def shareArn (name : String) : String := arnStem ++ "resource-share/" ++ name

def newPermission (i : PermissionInput) : PermissionRecord where
  arn := permissionArn i.name
  detail :=
    { arn := some (permissionArn i.name)
      name := some i.name
      resourceType := some i.resourceType
      policyTemplate := some i.policyTemplate
      version := some "1"
      defaultVersion := some true
      isResourceTypeDefault := some false
      status := some "ATTACHABLE"
      featureSet := some "STANDARD"
      permissionType := some "CUSTOMER_MANAGED"
      creationTime := none
      lastUpdatedTime := none
      tags := i.tags }

def newShare (i : ShareInput) : ShareRecord where
  arn := shareArn i.name
  detail :=
    { arn := some (shareArn i.name)
      name := some i.name
      owningAccountId := some accountId
      allowExternalPrincipals := some (i.allowExternalPrincipals.getD true)
      status := some "ACTIVE"
      statusMessage := none
      featureSet := some "STANDARD"
      creationTime := none
      lastUpdatedTime := none
      tags := i.tags }
  principals := NameSet.ofNames i.principals
  resources := NameSet.ofNames i.resourceArns
  sources := NameSet.ofNames i.sources
  permissions := NameSet.ofNames i.permissionArns

/-! ## Tags -/

/-- Puts a tag at the end of a list, in the place of the ones with its key. -/
def putTag (tags : List Tag) (t : Tag) : List Tag := tags.filter (fun u => u.key ≠ t.key) ++ [t]

def putTags (tags new : List Tag) : List Tag := new.foldl putTag tags

def dropTags (tags : List Tag) (keys : List String) : List Tag :=
  tags.filter fun t => !keys.contains t.key

/-! ## Versions -/

/-- The number after a version; a text that is no 32-bit integer counts as zero. -/
def nextVersion (version : Option String) : Int :=
  let n : Int :=
    match version.map fun v => Text.readInt32 v.toList with
    | some (.ok n) => n
    | _ => 0
  Int.bmod (n + 1) 4294967296

/-! ## Requests -/

def putPermission (a : Account) (p : PermissionRecord) : Account :=
  { a with permissions := a.permissions.insert p }

def putShare (a : Account) (s : ShareRecord) : Account := { a with shares := a.shares.insert s }

/-- Answers from the permission with an ARN and puts what becomes of it back. -/
def withPermission {β : Type} (a : Account) (o : Operation) (arn : String)
    (f : PermissionRecord → β × PermissionRecord) : Except ApiError β × Account :=
  match a.permissions.find? arn with
  | some p => (.ok (f p).1, a.putPermission (f p).2)
  | none => (.error (o.missing arn), a)

/-- Answers from the share with an ARN and puts what becomes of it back. -/
def withShare {β : Type} (a : Account) (o : Operation) (arn : String)
    (f : ShareRecord → β × ShareRecord) : Except ApiError β × Account :=
  match a.shares.find? arn with
  | some s => (.ok (f s).1, a.putShare (f s).2)
  | none => (.error (o.missing arn), a)

/-- Changes the tags of the share with an ARN, or of the permission with it, if there is one. -/
def changeTags (a : Account) (arn : String) (f : List Tag → List Tag) : Account :=
  match a.shares.find? arn with
  | some s => a.putShare { s with detail := { s.detail with tags := f s.detail.tags } }
  | none =>
    match a.permissions.find? arn with
    | some p => a.putPermission { p with detail := { p.detail with tags := f p.detail.tags } }
    | none => a

/-- The set with more names. -/
def addNames (s : NameSet) (names : List String) : NameSet := s.insertAll names

/-- The set without some names. -/
def dropNames (s : NameSet) (names : List String) : NameSet := s.filter fun n => !names.contains n

def associate (b : AssociationBatch) (s : ShareRecord) : ShareRecord :=
  { s with
    principals := addNames s.principals b.principals
    resources := addNames s.resources b.resourceArns
    sources := addNames s.sources b.sources }

def disassociate (b : AssociationBatch) (s : ShareRecord) : ShareRecord :=
  { s with
    principals := dropNames s.principals b.principals
    resources := dropNames s.resources b.resourceArns
    sources := dropNames s.sources b.sources }

/-- The share with another name and openness, as far as they are given. -/
def updateDetail (name : Option String) (allow : Option Bool) (s : ShareRecord) : ShareRecord :=
  { s with
    detail := { s.detail with
      name := name.or s.detail.name
      allowExternalPrincipals := allow.or s.detail.allowExternalPrincipals } }

/-- The associations of a share that can be listed. -/
def associations (s : ShareRecord) : AssociationType → NameSet
  | .principal => s.principals
  | .resource => s.resources

/-- A request that says nothing back, applied to a share. -/
def changeShare (a : Account) (o : Operation) (arn : String) (f : ShareRecord → ShareRecord) :
    Except ApiError Unit × Account :=
  a.withShare o arn fun s => ((), f s)

/-- How the account answers a request. -/
def serve : Service Account
  | .getPermission arn _, a => a.withPermission .getPermission arn fun p => (p.detail, p)
  | .createPermission i, a =>
    let p := newPermission i
    (.ok { p.detail with policyTemplate := none }, a.putPermission p)
  | .deletePermission arn, a =>
    if a.permissions.contains arn then (.ok (), { a with permissions := a.permissions.erase arn })
    else (.error (Operation.deletePermission.missing arn), a)
  | .createPermissionVersion arn policyTemplate, a =>
    a.withPermission .createPermissionVersion arn fun p =>
      let p := { p with detail := { p.detail with policyTemplate := some policyTemplate } }
      ({ p.detail with
          version := some (toString (nextVersion p.detail.version))
          defaultVersion := some false }, p)
  | .deletePermissionVersion _ _, a => (.ok (), a)
  | .setDefaultPermissionVersion arn version, a =>
    a.withPermission .setDefaultPermissionVersion arn fun p =>
      ((), { p with detail := { p.detail with version := some (toString version) } })
  | .getShare arn, a => a.withShare .getResourceShares arn fun s => (s.detail, s)
  | .createShare i, a =>
    let s := newShare i
    (.ok s.detail, a.putShare s)
  | .updateShare arn name allow, a =>
    a.withShare .updateResourceShare arn fun s =>
      let s := updateDetail name allow s
      (s.detail, s)
  | .deleteShare arn, a =>
    a.changeShare .deleteResourceShare arn fun s =>
      { s with detail := { s.detail with status := some "DELETED" } }
  | .tag target tags, a => (.ok (), a.changeTags target.arn (putTags · tags))
  | .untag target keys, a => (.ok (), a.changeTags target.arn (dropTags · keys))
  | .associate arn batch, a => a.changeShare .associateResourceShare arn (associate batch)
  | .disassociate arn batch, a => a.changeShare .disassociateResourceShare arn (disassociate batch)
  | .attachPermission arn permission, a =>
    a.changeShare .associateResourceSharePermission arn fun s =>
      { s with permissions := addNames s.permissions [permission] }
  | .detachPermission arn permission, a =>
    a.changeShare .disassociateResourceSharePermission arn fun s =>
      { s with permissions := dropNames s.permissions [permission] }
  | .listPermissions arn, a =>
    a.withShare .listResourceSharePermissions arn fun s => (s.permissions.toList, s)
  | .listAssociations arn type, a =>
    a.withShare .getResourceShareAssociations arn fun s => ((associations s type).toList, s)

end Account

end ShareKeeper
