import ShareKeeper.Wire.Response

/-!
# Replies of the service

The entities that the documents of successful responses are about, and for every request the reply
that is read from a document.
-/

namespace ShareKeeper.Wire

/-! ## Entities -/

/-- A tag; one without a key is dropped, one without a value has an empty one. -/
def tag : Json → Option (Option Tag) :=
  record fun ms => do
    let key ← read "key" text ms
    let value ← read "value" text ms
    return key.map fun k => ⟨k, value.getD ""⟩

def tags (ms : List (String × Json)) : Option (List Tag) := do
  let l ← list "tags" tag ms
  return l.filterMap id

/-- A permission as it is looked up. -/
def permission : Json → Option PermissionDetail :=
  record fun ms => do
    let arn ← read "arn" text ms
    let version ← read "version" text ms
    let defaultVersion ← read "defaultVersion" truth ms
    let name ← read "name" text ms
    let resourceType ← read "resourceType" text ms
    let policyTemplate ← read "permission" text ms
    let creationTime ← time "creationTime" ms
    let lastUpdatedTime ← time "lastUpdatedTime" ms
    let isResourceTypeDefault ← read "isResourceTypeDefault" truth ms
    let permissionType ← read "permissionType" text ms
    let featureSet ← read "featureSet" text ms
    let status ← read "status" text ms
    let tags ← tags ms
    return { arn, name, resourceType, policyTemplate, version, defaultVersion, isResourceTypeDefault,
             status, featureSet, permissionType, creationTime, lastUpdatedTime, tags }

/-- A permission as it is listed, without its policy. -/
def permissionSummary : Json → Option PermissionDetail :=
  record fun ms => permission (.object (ms.filter fun m => m.1 ≠ "permission"))

def share : Json → Option ShareDetail :=
  record fun ms => do
    let arn ← read "resourceShareArn" text ms
    let name ← read "name" text ms
    let owningAccountId ← read "owningAccountId" text ms
    let allowExternalPrincipals ← read "allowExternalPrincipals" truth ms
    let status ← read "status" text ms
    let statusMessage ← read "statusMessage" text ms
    let tags ← tags ms
    let creationTime ← time "creationTime" ms
    let lastUpdatedTime ← time "lastUpdatedTime" ms
    let featureSet ← read "featureSet" text ms
    return { arn, name, owningAccountId, allowExternalPrincipals, status, statusMessage, featureSet,
             creationTime, lastUpdatedTime, tags }

/-- What is associated with a share, and in what state the association is. -/
structure Association where
  entity : Option String
  status : Option String

def association : Json → Option Association :=
  record fun ms => do
    let _ ← read "resourceShareArn" text ms
    let _ ← read "resourceShareName" text ms
    let entity ← read "associatedEntity" text ms
    let _ ← read "associationType" text ms
    let status ← read "status" text ms
    let _ ← read "statusMessage" text ms
    let _ ← time "creationTime" ms
    let _ ← time "lastUpdatedTime" ms
    let _ ← read "external" truth ms
    return ⟨entity, status⟩

/-! ## Whole documents -/

/-- What understanding a document comes to. -/
def understand {α : Type} (f : List (String × Json) → Option α) (document : Option Json) :
    Except CallFault α :=
  match document.bind (record f) with
  | some a => .ok a
  | none => .error .unclear

/-- Insists on what the response is about. -/
def present {α : Type} (what : String) : Except CallFault (Option α) → Except CallFault α
  | .ok (some a) => .ok a
  | .ok none => .error (.empty what)
  | .error f => .error f

/-- The permission that a document is about, as it is looked up or as it is listed. -/
def readPermission (value : Json → Option PermissionDetail) (document : Option Json) :
    Except CallFault PermissionDetail :=
  present "permission" <| document |> understand fun ms => do
    let _ ← read "clientToken" text ms
    read "permission" value ms

/-- The share that a document is about. -/
def readShare (document : Option Json) : Except CallFault ShareDetail :=
  present "resource share" <| document |> understand fun ms => do
    let _ ← read "clientToken" text ms
    read "resourceShare" share ms

/-- The share with an ARN among those that are listed. -/
def findShare (arn : String) (document : Option Json) : Except CallFault ShareDetail := do
  let shares ← document |> understand fun ms => do
    let _ ← read "nextToken" text ms
    list "resourceShares" share ms
  match shares.find? fun s => s.arn = some arn with
  | some s => return s
  | none => .error (.unlisted arn)

/-- The confirmation of a change. -/
def readConfirmation : Option Json → Except CallFault Unit :=
  understand fun ms => do
    let _ ← read "returnValue" truth ms
    let _ ← read "clientToken" text ms
    return ()

/-- The confirmation that a permission, or a version of it, is deleted. -/
def readDeletion : Option Json → Except CallFault Unit :=
  understand fun ms => do
    let _ ← read "returnValue" truth ms
    let _ ← read "clientToken" text ms
    let _ ← read "permissionStatus" text ms
    return ()

/-- The confirmation of associations. -/
def readAssociations : Option Json → Except CallFault Unit :=
  understand fun ms => do
    let _ ← list "resourceShareAssociations" association ms
    let _ ← read "clientToken" text ms
    return ()

/-- One page of a list, and the token that asks for the next one. -/
structure Page where
  names : List String
  next : Option String

/-- The permissions of a share that have an ARN. -/
def readPermissionPage : Option Json → Except CallFault Page :=
  understand fun ms => do
    let l ← list "permissions" permissionSummary ms
    let next ← read "nextToken" text ms
    return ⟨l.filterMap PermissionDetail.arn, next⟩

/-- What is associated by now, of those that name an entity. -/
def readAssociationPage : Option Json → Except CallFault Page :=
  understand fun ms => do
    let l ← list "resourceShareAssociations" association ms
    let next ← read "nextToken" text ms
    return ⟨(l.filter fun a => a.status = some "ASSOCIATED").filterMap Association.entity, next⟩

/-- The reply in a document; of a list, the part on the page. -/
def readReply : (r : Request) → Option Json → Except CallFault r.Reply
  | .getPermission .. => readPermission permission
  | .createPermission .. => readPermission permissionSummary
  | .deletePermission .. => readDeletion
  | .createPermissionVersion .. => readPermission permission
  | .deletePermissionVersion .. => readDeletion
  | .setDefaultPermissionVersion .. => readConfirmation
  | .getShare arn => findShare arn
  | .createShare .. => readShare
  | .updateShare .. => readShare
  | .deleteShare .. => readConfirmation
  | .tag .. => fun _ => .ok ()
  | .untag .. => fun _ => .ok ()
  | .associate .. => readAssociations
  | .disassociate .. => readAssociations
  | .attachPermission .. => readConfirmation
  | .detachPermission .. => readConfirmation
  | .listPermissions .. => fun document => (readPermissionPage document).map Page.names
  | .listAssociations .. => fun document => (readAssociationPage document).map Page.names

end ShareKeeper.Wire
