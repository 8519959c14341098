import ShareKeeper.Failure
import ShareKeeper.Service.Detail

/-!
# Requests to the sharing service

The operations that the controller uses, the requests it makes of them, and for each request the
type of its reply. An answer is a reply or the error with which the service refuses.

A *service* is anything that answers requests one after another: a state, and for each request and
state an answer and the next state.
-/

namespace ShareKeeper

inductive Operation where
  | getPermission
  | createPermission
  | deletePermission
  | createPermissionVersion
  | deletePermissionVersion
  | setDefaultPermissionVersion
  | getResourceShares
  | createResourceShare
  | updateResourceShare
  | deleteResourceShare
  | tagResource
  | untagResource
  | associateResourceShare
  | disassociateResourceShare
  | associateResourceSharePermission
  | disassociateResourceSharePermission
  | listResourceSharePermissions
  | getResourceShareAssociations
  deriving DecidableEq, Repr

/-- What an operation is used for, as the metrics label it. -/
inductive Purpose where
  | readOne
  | readMany
  | create
  | update
  | delete
  deriving DecidableEq, Repr

def Purpose.label : Purpose → String
  | .readOne => "READ_ONE"
  | .readMany => "READ_MANY"
  | .create => "CREATE"
  | .update => "UPDATE"
  | .delete => "DELETE"

/-- What an operation replies with. -/
inductive ReplyKind where
  | permission
  | share
  | names
  | nothing
  deriving DecidableEq, Repr

abbrev ReplyKind.Value : ReplyKind → Type
  | .permission => PermissionDetail
  | .share => ShareDetail
  | .names => List String
  | .nothing => Unit

namespace Operation

def all : List Operation :=
  [.getPermission, .createPermission, .deletePermission, .createPermissionVersion,
   .deletePermissionVersion, .setDefaultPermissionVersion, .getResourceShares, .createResourceShare,
   .updateResourceShare, .deleteResourceShare, .tagResource, .untagResource, .associateResourceShare,
   .disassociateResourceShare, .associateResourceSharePermission, .disassociateResourceSharePermission,
   .listResourceSharePermissions, .getResourceShareAssociations]

def name : Operation → String
  | .getPermission => "GetPermission"
  | .createPermission => "CreatePermission"
  | .deletePermission => "DeletePermission"
  | .createPermissionVersion => "CreatePermissionVersion"
  | .deletePermissionVersion => "DeletePermissionVersion"
  | .setDefaultPermissionVersion => "SetDefaultPermissionVersion"
  | .getResourceShares => "GetResourceShares"
  | .createResourceShare => "CreateResourceShare"
  | .updateResourceShare => "UpdateResourceShare"
  | .deleteResourceShare => "DeleteResourceShare"
  | .tagResource => "TagResource"
  | .untagResource => "UntagResource"
  | .associateResourceShare => "AssociateResourceShare"
  | .disassociateResourceShare => "DisassociateResourceShare"
  | .associateResourceSharePermission => "AssociateResourceSharePermission"
  | .disassociateResourceSharePermission => "DisassociateResourceSharePermission"
  | .listResourceSharePermissions => "ListResourceSharePermissions"
  | .getResourceShareAssociations => "GetResourceShareAssociations"

def purpose : Operation → Purpose
  | .getPermission => .readOne
  | .createPermission | .createResourceShare => .create
  | .deletePermission | .deletePermissionVersion | .deleteResourceShare => .delete
  | .getResourceShares | .listResourceSharePermissions | .getResourceShareAssociations => .readMany
  | .createPermissionVersion | .setDefaultPermissionVersion | .updateResourceShare | .tagResource
  | .untagResource | .associateResourceShare | .disassociateResourceShare
  | .associateResourceSharePermission | .disassociateResourceSharePermission => .update

abbrev replyKind : Operation → ReplyKind
  | .getPermission | .createPermission | .createPermissionVersion => .permission
  | .getResourceShares | .createResourceShare | .updateResourceShare => .share
  | .listResourceSharePermissions | .getResourceShareAssociations => .names
  | .deletePermission | .deletePermissionVersion | .setDefaultPermissionVersion | .deleteResourceShare
  | .tagResource | .untagResource | .associateResourceShare | .disassociateResourceShare
  | .associateResourceSharePermission | .disassociateResourceSharePermission => .nothing

/-- The type of an operation's reply. -/
abbrev Reply (o : Operation) : Type := o.replyKind.Value

/-- Whether an operation only looks. -/
def isRead : Operation → Bool
  | .getPermission | .getResourceShares | .listResourceSharePermissions
  | .getResourceShareAssociations => true
  | _ => false

/-- The error of an operation that addresses what does not exist. -/
def missing (o : Operation) (arn : String) : ApiError :=
  ⟨.notFound, o.name, none, arn ++ " does not exist"⟩

end Operation

/-! ## Requests -/

inductive Request where
  | getPermission (arn : String) (version : Option Int)
  | createPermission (input : PermissionInput)
  | deletePermission (arn : String)
  | createPermissionVersion (arn policyTemplate : String)
  | deletePermissionVersion (arn : String) (version : Int)
  | setDefaultPermissionVersion (arn : String) (version : Int)
  /-- The share with an ARN, looked for among the shares of the account. -/
  | getShare (arn : String)
  | createShare (input : ShareInput)
  | updateShare (arn : String) (name : Option String) (allowExternalPrincipals : Option Bool)
  | deleteShare (arn : String)
  | tag (target : TagTarget) (tags : List Tag)
  | untag (target : TagTarget) (keys : List String)
  | associate (arn : String) (batch : AssociationBatch)
  | disassociate (arn : String) (batch : AssociationBatch)
  | attachPermission (arn permissionArn : String)
  | detachPermission (arn permissionArn : String)
  | listPermissions (arn : String)
  | listAssociations (arn : String) (type : AssociationType)
  deriving DecidableEq, Repr

namespace Request

abbrev operation : Request → Operation
  | .getPermission .. => .getPermission
  | .createPermission .. => .createPermission
  | .deletePermission .. => .deletePermission
  | .createPermissionVersion .. => .createPermissionVersion
  | .deletePermissionVersion .. => .deletePermissionVersion
  | .setDefaultPermissionVersion .. => .setDefaultPermissionVersion
  | .getShare .. => .getResourceShares
  | .createShare .. => .createResourceShare
  | .updateShare .. => .updateResourceShare
  | .deleteShare .. => .deleteResourceShare
  | .tag .. => .tagResource
  | .untag .. => .untagResource
  | .associate .. => .associateResourceShare
  | .disassociate .. => .disassociateResourceShare
  | .attachPermission .. => .associateResourceSharePermission
  | .detachPermission .. => .disassociateResourceSharePermission
  | .listPermissions .. => .listResourceSharePermissions
  | .listAssociations .. => .getResourceShareAssociations

/-- The type of a request's reply. -/
abbrev Reply (r : Request) : Type := r.operation.Reply

end Request

/-- A reply, or the error with which the service refuses. -/
abbrev Answer (r : Request) : Type := Except ApiError r.Reply

/-- Something that answers requests and changes with them. -/
abbrev Service (σ : Type) : Type := (r : Request) → σ → Answer r × σ

end ShareKeeper
