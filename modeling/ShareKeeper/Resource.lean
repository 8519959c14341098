import ShareKeeper.Conditions
import ShareKeeper.Metadata
import ShareKeeper.Tag

/-!
# Managed resources

The two kinds of object that the controller manages: customer managed permissions, and resource
shares. Both have metadata, a specification that the user writes, and a status that the controller
writes. What the status of both kinds has in common is `Status`; what it says about one kind only
are its *facts*.

The status also carries the identity of the remote entity. Its name in the service, the ARN, is the
only link from an object to the entity behind it.

Which kind of time a status holds is left open; where nothing is said, it is an `Instant`.
-/

namespace ShareKeeper

inductive Kind where
  | permission
  | share
  deriving DecidableEq, Repr

namespace Kind

def name : Kind → String
  | .permission => "Permission"
  | .share => "ResourceShare"

/-- The name of the collection of such objects. -/
def plural : Kind → String
  | .permission => "permissions"
  | .share => "resourceshares"

/-- The lifecycle state in which an entity can be used. -/
def settledState : Kind → String
  | .permission => "ATTACHABLE"
  | .share => "ACTIVE"

end Kind

/-- The API group of the managed objects. -/
def apiGroup : String := "ram.services.k8s.aws"

/-- The name of the version in which the objects are served. -/
def apiVersionName : String := "v1alpha1"

def apiVersion : String := apiGroup ++ "/" ++ apiVersionName

/-! ## Specifications -/

structure PermissionSpec where
  name : String
  /-- The type of resource that the permission is for. -/
  resourceType : String
  /-- A JSON document. -/
  policyTemplate : String
  tags : List Tag
  deriving DecidableEq, Repr

structure ShareSpec where
  name : String
  /-- Whether principals outside the organization are let in; if not set, the service decides. -/
  allowExternalPrincipals : Option Bool
  permissionArns : List String
  principals : List String
  resourceArns : List String
  sources : List String
  tags : List Tag
  deriving DecidableEq, Repr

/-! ## Status -/

/-- The entity behind an object. -/
structure Identity where
  arn : Option String
  ownerAccountId : Option String
  region : Option String
  deriving DecidableEq, Repr

def Identity.empty : Identity := ⟨none, none, none⟩

structure PermissionFacts where
  /-- Whether `version` is the default version of the permission. -/
  defaultVersion : Option Bool
  isResourceTypeDefault : Option Bool
  permissionType : Option String
  /-- The active version of the policy. -/
  version : Option String
  deriving DecidableEq, Repr

structure ShareFacts where
  owningAccountId : Option String
  statusMessage : Option String
  /-- The sources that the controller last associated; the service does not list them. -/
  associatedSources : List String
  deriving DecidableEq, Repr

/-- A status with the facts and times of one kind. -/
structure Status (Facts : Type) (T : Type := Instant) where
  identity : Option Identity
  conditions : Conditions T
  creationTime : Option T
  lastUpdatedTime : Option T
  featureSet : Option String
  /-- The lifecycle state that the service reports. -/
  state : Option String
  facts : Facts
  deriving DecidableEq

namespace Kind

abbrev Spec : Kind → Type
  | .permission => PermissionSpec
  | .share => ShareSpec

abbrev Facts : Kind → Type
  | .permission => PermissionFacts
  | .share => ShareFacts

/-- The facts about an entity of which nothing is known. -/
def noFacts : (k : Kind) → k.Facts
  | .permission => ⟨none, none, none, none⟩
  | .share => ⟨none, none, []⟩

/-- The status of an object that was never looked at. -/
def emptyStatus (k : Kind) : Status k.Facts :=
  ⟨none, .empty, none, none, none, none, k.noFacts⟩

end Kind

/-! ## Objects -/

structure Resource (k : Kind) (T : Type := Instant) where
  metadata : Metadata
  spec : k.Spec
  status : Option (Status k.Facts T)

namespace Resource

variable {k : Kind}

/-- The ARN of the entity behind the object, once there is one. -/
def arn (r : Resource k) : Option String := r.status.bind fun s => s.identity.bind Identity.arn

def conditions (r : Resource k) : Option Conditions := r.status.map Status.conditions

def name (r : Resource k) : String := r.metadata.anyName

/-- The namespace of the object, empty if it has none. -/
def namespaceName (r : Resource k) : String := r.metadata.namespaceName.getD ""

/-- The status, or the empty one if the object has none yet. -/
def statusD (r : Resource k) : Status k.Facts := r.status.getD k.emptyStatus

/-- Whether the entity has reached a state in which it can be used. -/
def isSettled (r : Resource k) : Bool :=
  (r.status.bind Status.state).any fun s => s = k.settledState

/-- Changes the status; an object without one gets the empty one first. -/
def updateStatus (r : Resource k) (f : Status k.Facts → Status k.Facts) : Resource k :=
  { r with status := some (f r.statusD) }

/-- Changes what is known of the entity. -/
def updateIdentity (r : Resource k) (f : Identity → Identity) : Resource k :=
  r.updateStatus fun s => { s with identity := some (f (s.identity.getD .empty)) }

/-- Changes the conditions. -/
def updateConditions (r : Resource k) (f : Conditions → Conditions) : Resource k :=
  r.updateStatus fun s => { s with conditions := f s.conditions }

/-- Records the region of the entity unless one is recorded. -/
def withRegion (r : Resource k) (region : Option String) : Resource k :=
  r.updateIdentity fun i => { i with region := i.region.or region }

end Resource

end ShareKeeper
