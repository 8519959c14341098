import ShareKeeper.Tag
import ShareKeeper.Time.Instant

/-!
# What the sharing service reports and takes

A *detail* is what the service tells about one entity. Nearly everything in it may be missing: what
is told depends on the call. An *input* is what an entity is created from.
-/

namespace ShareKeeper

structure PermissionDetail where
  arn : Option String
  name : Option String
  resourceType : Option String
  /-- Missing in the answer to a creation. -/
  policyTemplate : Option String
  version : Option String
  defaultVersion : Option Bool
  isResourceTypeDefault : Option Bool
  status : Option String
  featureSet : Option String
  permissionType : Option String
  creationTime : Option Instant
  lastUpdatedTime : Option Instant
  tags : List Tag
  deriving DecidableEq

structure ShareDetail where
  arn : Option String
  name : Option String
  owningAccountId : Option String
  allowExternalPrincipals : Option Bool
  status : Option String
  statusMessage : Option String
  featureSet : Option String
  creationTime : Option Instant
  lastUpdatedTime : Option Instant
  tags : List Tag
  deriving DecidableEq

structure PermissionInput where
  name : String
  resourceType : String
  policyTemplate : String
  tags : List Tag
  deriving DecidableEq, Repr

structure ShareInput where
  name : String
  allowExternalPrincipals : Option Bool
  permissionArns : List String
  principals : List String
  resourceArns : List String
  sources : List String
  tags : List Tag
  deriving DecidableEq, Repr

/-- Identifiers that are associated with a share, or taken from it, in one call. -/
structure AssociationBatch where
  principals : List String
  resourceArns : List String
  sources : List String
  deriving DecidableEq, Repr

def AssociationBatch.isEmpty (b : AssociationBatch) : Bool :=
  b.principals.isEmpty && b.resourceArns.isEmpty && b.sources.isEmpty

/-- The associations of a share that the service lists. -/
inductive AssociationType where
  | principal
  | resource
  deriving DecidableEq, Repr

/-- The entity whose tags are changed. Shares are addressed in another way than everything else. -/
inductive TagTarget where
  | share (arn : String)
  | resource (arn : String)
  deriving DecidableEq, Repr

def TagTarget.arn : TagTarget → String
  | .share arn => arn
  | .resource arn => arn

end ShareKeeper
